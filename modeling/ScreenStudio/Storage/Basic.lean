/- digest: Texts stored under keys, and a storage in memory. -/

import ScreenStudio.Dictionary

set_option autoImplicit false
set_option relaxedAutoImplicit false

namespace ScreenStudio

/-- Why something could not be loaded or saved. -/
inductive StorageError
  | read (key detail : String)
  | write (key detail : String)
  | malformed (key reason : String)
  deriving DecidableEq, Repr

def StorageError.message : StorageError → String
  | .read key detail => "failed to read `" ++ key ++ "`: " ++ detail
  | .write key detail => "failed to write `" ++ key ++ "`: " ++ detail
  | .malformed key reason => "stored project `" ++ key ++ "` is malformed: " ++ reason

/-- What a storage can do. -/
class Storage (σ : Type) where
  /-- The text under a key, if there is one. -/
  load : σ → String → Except StorageError (Option String)
  /-- Store a text under a key. -/
  save : σ → String → String → Except StorageError Unit × σ

structure MemoryStorage where
  entries : List (String × String)
  readOnly : Bool
  deriving DecidableEq, Repr

namespace MemoryStorage

/-- A storage that can be written and holds nothing. -/
def empty : MemoryStorage := ⟨[], false⟩

/-- What a save to a read-only storage is answered. -/
def readOnlyDetail : String := "storage is read-only"

/-- Store a text unless the storage is read-only. -/
def save (storage : MemoryStorage) (key value : String) :
    Except StorageError Unit × MemoryStorage :=
  if storage.readOnly then (.error (.write key readOnlyDetail), storage)
  else (.ok (), { storage with entries := Dictionary.insert key value storage.entries })

instance : Storage MemoryStorage where
  load storage key := .ok (Dictionary.get? key storage.entries)
  save := save

end MemoryStorage

end ScreenStudio
