/- digest: What a save leaves to be loaded, whether it succeeds or fails. -/

import ScreenStudio.Storage.Basic

set_option autoImplicit false
set_option relaxedAutoImplicit false

namespace ScreenStudio

/-- A save that succeeds stores its text, and one that fails stores nothing. -/
class LawfulStorage (σ : Type) [Storage σ] : Prop where
  load_of_ok : ∀ (storage : σ) (key value : String),
    (Storage.save storage key value).1 = .ok () →
      Storage.load (Storage.save storage key value).2 key = .ok (some value)
  load_of_error : ∀ (storage : σ) (key value : String) (error : StorageError),
    (Storage.save storage key value).1 = .error error →
      Storage.load (Storage.save storage key value).2 key = Storage.load storage key

namespace MemoryStorage

instance : LawfulStorage MemoryStorage where
  load_of_ok := by
    intro storage key value saved
    show Except.ok (Dictionary.get? key (storage.save key value).2.entries) = _
    have saved : (storage.save key value).1 = .ok () := saved
    unfold save at saved ⊢
    split at saved
    · cases saved
    · rename_i writable
      rw [if_neg writable, Dictionary.get?_insert_self]
  load_of_error := by
    intro storage key value error failed
    show Except.ok (Dictionary.get? key (storage.save key value).2.entries) = _
    have failed : (storage.save key value).1 = .error error := failed
    unfold save at failed ⊢
    split at failed
    · rename_i readOnly
      rw [if_pos readOnly]
      rfl
    · cases failed

end MemoryStorage

end ScreenStudio
