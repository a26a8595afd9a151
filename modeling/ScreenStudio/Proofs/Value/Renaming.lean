/- digest: Values with their identities renamed, and values whose identities are below a bound. -/

import ScreenStudio.Proofs.Dictionary
import ScreenStudio.Value.Text

set_option autoImplicit false
set_option relaxedAutoImplicit false

namespace ScreenStudio

mutual

/-- The value with every identity renamed. -/
def Value.rename (relabel : Nat → Nat) : Value → Value
  | .null => .null
  | .bool value => .bool value
  | .number value => .number value
  | .text value => .text value
  | .array identity items => .array (relabel identity) (Value.renameItems relabel items)
  | .object identity entries => .object (relabel identity) (Value.renameEntries relabel entries)
  | .function closure => .function (closure.rename relabel)
  | .builtin known => .builtin known
  | .adder collector => .adder (relabel collector)
  | .node identity tree => .node (relabel identity) (tree.rename relabel)

/-- The items one by one. -/
def Value.renameItems (relabel : Nat → Nat) : List Value → List Value
  | [] => []
  | item :: rest => item.rename relabel :: Value.renameItems relabel rest

/-- The entries one by one, under the same keys. -/
def Value.renameEntries (relabel : Nat → Nat) : List (String × Value) → List (String × Value)
  | [] => []
  | (key, value) :: rest => (key, value.rename relabel) :: Value.renameEntries relabel rest

def Closure.rename (relabel : Nat → Nat) : Closure → Closure
  | .mk span parameters body scope => .mk span parameters body (Value.renameEntries relabel scope)

def Node.rename (relabel : Nat → Nat) : Node → Node
  | .mk tag properties children =>
    .mk tag (Property.renameList relabel properties) (Child.renameList relabel children)

def Child.rename (relabel : Nat → Nat) : Child → Child
  | .node tree => .node (tree.rename relabel)
  | .text content => .text content

def Child.renameList (relabel : Nat → Nat) : List Child → List Child
  | [] => []
  | child :: rest => child.rename relabel :: Child.renameList relabel rest

def Property.rename (relabel : Nat → Nat) : Property → Property
  | .data value => .data value
  | .handler reaction => .handler (reaction.rename relabel)

def Property.renameList (relabel : Nat → Nat) : List (String × Property) → List (String × Property)
  | [] => []
  | (name, property) :: rest => (name, property.rename relabel) :: Property.renameList relabel rest

/-- The handler with the bindings of its callback renamed, and the bound on their identities too. -/
def Handler.rename (relabel : Nat → Nat) : Handler → Handler
  | .action text => .action text
  | .callback closure source fresh => .callback (closure.rename relabel) source (relabel fresh)

end

mutual

/-- Every identity in the value is below the bound. -/
def Value.Below (bound : Nat) : Value → Prop
  | .null => True
  | .bool _ => True
  | .number _ => True
  | .text _ => True
  | .array identity items => identity < bound ∧ Value.ItemsBelow bound items
  | .object identity entries => identity < bound ∧ Value.EntriesBelow bound entries
  | .function closure => closure.Below bound
  | .builtin _ => True
  | .adder collector => collector < bound
  | .node identity tree => identity < bound ∧ tree.Below bound

/-- Every identity in the items is below the bound. -/
def Value.ItemsBelow (bound : Nat) : List Value → Prop
  | [] => True
  | item :: rest => item.Below bound ∧ Value.ItemsBelow bound rest

/-- Every identity in the entries is below the bound. -/
def Value.EntriesBelow (bound : Nat) : List (String × Value) → Prop
  | [] => True
  | (_, value) :: rest => value.Below bound ∧ Value.EntriesBelow bound rest

/-- Every identity that the closure can see is below the bound. -/
def Closure.Below (bound : Nat) : Closure → Prop
  | .mk _ _ _ scope => Value.EntriesBelow bound scope

/-- Every identity in the callbacks of the node is below the bound. -/
def Node.Below (bound : Nat) : Node → Prop
  | .mk _ properties children => Property.ListBelow bound properties ∧ Child.ListBelow bound children

def Child.Below (bound : Nat) : Child → Prop
  | .node tree => tree.Below bound
  | .text _ => True

def Child.ListBelow (bound : Nat) : List Child → Prop
  | [] => True
  | child :: rest => child.Below bound ∧ Child.ListBelow bound rest

def Property.Below (bound : Nat) : Property → Prop
  | .data _ => True
  | .handler reaction => reaction.Below bound

def Property.ListBelow (bound : Nat) : List (String × Property) → Prop
  | [] => True
  | (_, property) :: rest => property.Below bound ∧ Property.ListBelow bound rest

/-- The bindings of a callback are below the bound that the callback keeps, and that one is lower. -/
def Handler.Below (bound : Nat) : Handler → Prop
  | .action _ => True
  | .callback closure _ fresh => closure.Below fresh ∧ fresh < bound

end

mutual

theorem Value.Below.mono {low high : Nat} (le : low ≤ high) :
    ∀ {value : Value}, value.Below low → value.Below high
  | .null, _ => trivial
  | .bool _, _ => trivial
  | .number _, _ => trivial
  | .text _, _ => trivial
  | .array _ _, below => ⟨Nat.lt_of_lt_of_le below.1 le, Value.ItemsBelow.mono le below.2⟩
  | .object _ _, below => ⟨Nat.lt_of_lt_of_le below.1 le, Value.EntriesBelow.mono le below.2⟩
  | .function _, below => Closure.Below.mono le below
  | .builtin _, _ => trivial
  | .adder _, below => Nat.lt_of_lt_of_le below le
  | .node _ _, below => ⟨Nat.lt_of_lt_of_le below.1 le, Node.Below.mono le below.2⟩

theorem Value.ItemsBelow.mono {low high : Nat} (le : low ≤ high) :
    ∀ {items : List Value}, Value.ItemsBelow low items → Value.ItemsBelow high items
  | [], _ => trivial
  | _ :: _, below => ⟨Value.Below.mono le below.1, Value.ItemsBelow.mono le below.2⟩

theorem Value.EntriesBelow.mono {low high : Nat} (le : low ≤ high) :
    ∀ {entries : List (String × Value)}, Value.EntriesBelow low entries →
      Value.EntriesBelow high entries
  | [], _ => trivial
  | (_, _) :: _, below => ⟨Value.Below.mono le below.1, Value.EntriesBelow.mono le below.2⟩

theorem Closure.Below.mono {low high : Nat} (le : low ≤ high) :
    ∀ {closure : Closure}, closure.Below low → closure.Below high
  | .mk _ _ _ _, below => Value.EntriesBelow.mono le below

theorem Node.Below.mono {low high : Nat} (le : low ≤ high) :
    ∀ {tree : Node}, tree.Below low → tree.Below high
  | .mk _ _ _, below => ⟨Property.ListBelow.mono le below.1, Child.ListBelow.mono le below.2⟩

theorem Child.Below.mono {low high : Nat} (le : low ≤ high) :
    ∀ {child : Child}, child.Below low → child.Below high
  | .node _, below => Node.Below.mono le below
  | .text _, _ => trivial

theorem Child.ListBelow.mono {low high : Nat} (le : low ≤ high) :
    ∀ {children : List Child}, Child.ListBelow low children → Child.ListBelow high children
  | [], _ => trivial
  | _ :: _, below => ⟨Child.Below.mono le below.1, Child.ListBelow.mono le below.2⟩

theorem Property.Below.mono {low high : Nat} (le : low ≤ high) :
    ∀ {property : Property}, property.Below low → property.Below high
  | .data _, _ => trivial
  | .handler (.action _), _ => trivial
  | .handler (.callback _ _ _), below => ⟨below.1, Nat.lt_of_lt_of_le below.2 le⟩

theorem Property.ListBelow.mono {low high : Nat} (le : low ≤ high) :
    ∀ {properties : List (String × Property)}, Property.ListBelow low properties →
      Property.ListBelow high properties
  | [], _ => trivial
  | (_, _) :: _, below => ⟨Property.Below.mono le below.1, Property.ListBelow.mono le below.2⟩

end

/-- The two renamings are the same below the bound. -/
def Agree (bound : Nat) (relabel other : Nat → Nat) : Prop :=
  ∀ identity < bound, relabel identity = other identity

section Agreement

variable {relabel other : Nat → Nat}

mutual

theorem Value.rename_congr {bound : Nat} (agree : Agree bound relabel other) :
    ∀ {value : Value}, value.Below bound → value.rename relabel = value.rename other
  | .null, _ => rfl
  | .bool _, _ => rfl
  | .number _, _ => rfl
  | .text _, _ => rfl
  | .array identity _, below => by
    rw [Value.rename, Value.rename, agree identity below.1, Value.renameItems_congr agree below.2]
  | .object identity _, below => by
    rw [Value.rename, Value.rename, agree identity below.1, Value.renameEntries_congr agree below.2]
  | .function _, below => by rw [Value.rename, Value.rename, Closure.rename_congr agree below]
  | .builtin _, _ => rfl
  | .adder collector, below => by rw [Value.rename, Value.rename, agree collector below]
  | .node identity _, below => by
    rw [Value.rename, Value.rename, agree identity below.1, Node.rename_congr agree below.2]

theorem Value.renameItems_congr {bound : Nat} (agree : Agree bound relabel other) :
    ∀ {items : List Value}, Value.ItemsBelow bound items →
      Value.renameItems relabel items = Value.renameItems other items
  | [], _ => rfl
  | _ :: _, below => by
    rw [Value.renameItems, Value.renameItems, Value.rename_congr agree below.1,
      Value.renameItems_congr agree below.2]

theorem Value.renameEntries_congr {bound : Nat} (agree : Agree bound relabel other) :
    ∀ {entries : List (String × Value)}, Value.EntriesBelow bound entries →
      Value.renameEntries relabel entries = Value.renameEntries other entries
  | [], _ => rfl
  | (_, _) :: _, below => by
    rw [Value.renameEntries, Value.renameEntries, Value.rename_congr agree below.1,
      Value.renameEntries_congr agree below.2]

theorem Closure.rename_congr {bound : Nat} (agree : Agree bound relabel other) :
    ∀ {closure : Closure}, closure.Below bound → closure.rename relabel = closure.rename other
  | .mk _ _ _ _, below => by
    rw [Closure.rename, Closure.rename, Value.renameEntries_congr agree below]

theorem Node.rename_congr {bound : Nat} (agree : Agree bound relabel other) :
    ∀ {tree : Node}, tree.Below bound → tree.rename relabel = tree.rename other
  | .mk _ _ _, below => by
    rw [Node.rename, Node.rename, Property.renameList_congr agree below.1,
      Child.renameList_congr agree below.2]

theorem Child.rename_congr {bound : Nat} (agree : Agree bound relabel other) :
    ∀ {child : Child}, child.Below bound → child.rename relabel = child.rename other
  | .node _, below => by rw [Child.rename, Child.rename, Node.rename_congr agree below]
  | .text _, _ => rfl

theorem Child.renameList_congr {bound : Nat} (agree : Agree bound relabel other) :
    ∀ {children : List Child}, Child.ListBelow bound children →
      Child.renameList relabel children = Child.renameList other children
  | [], _ => rfl
  | _ :: _, below => by
    rw [Child.renameList, Child.renameList, Child.rename_congr agree below.1,
      Child.renameList_congr agree below.2]

theorem Property.rename_congr {bound : Nat} (agree : Agree bound relabel other) :
    ∀ {property : Property}, property.Below bound → property.rename relabel = property.rename other
  | .data _, _ => rfl
  | .handler _, below => by
    rw [Property.rename, Property.rename, Handler.rename_congr agree below]

theorem Property.renameList_congr {bound : Nat} (agree : Agree bound relabel other) :
    ∀ {properties : List (String × Property)}, Property.ListBelow bound properties →
      Property.renameList relabel properties = Property.renameList other properties
  | [], _ => rfl
  | (_, _) :: _, below => by
    rw [Property.renameList, Property.renameList, Property.rename_congr agree below.1,
      Property.renameList_congr agree below.2]

theorem Handler.rename_congr {bound : Nat} (agree : Agree bound relabel other) :
    ∀ {handler : Handler}, handler.Below bound → handler.rename relabel = handler.rename other
  | .action _, _ => rfl
  | .callback _ _ fresh, below => by
    have inner : Agree fresh relabel other :=
      fun identity less => agree identity (Nat.lt_trans less below.2)
    rw [Handler.rename, Handler.rename, Closure.rename_congr inner below.1, agree fresh below.2]

end

end Agreement

mutual

theorem Value.rename_id : ∀ value : Value, value.rename id = value
  | .null => rfl
  | .bool _ => rfl
  | .number _ => rfl
  | .text _ => rfl
  | .array _ items => by rw [Value.rename, Value.renameItems_id items, id]
  | .object _ entries => by rw [Value.rename, Value.renameEntries_id entries, id]
  | .function closure => by rw [Value.rename, Closure.rename_id closure]
  | .builtin _ => rfl
  | .adder _ => rfl
  | .node _ tree => by rw [Value.rename, Node.rename_id tree, id]

theorem Value.renameItems_id : ∀ items : List Value, Value.renameItems id items = items
  | [] => rfl
  | item :: rest => by rw [Value.renameItems, Value.rename_id item, Value.renameItems_id rest]

theorem Value.renameEntries_id : ∀ entries : List (String × Value),
    Value.renameEntries id entries = entries
  | [] => rfl
  | (_, value) :: rest => by
    rw [Value.renameEntries, Value.rename_id value, Value.renameEntries_id rest]

theorem Closure.rename_id : ∀ closure : Closure, closure.rename id = closure
  | .mk _ _ _ scope => by rw [Closure.rename, Value.renameEntries_id scope]

theorem Node.rename_id : ∀ tree : Node, tree.rename id = tree
  | .mk _ properties children => by
    rw [Node.rename, Property.renameList_id properties, Child.renameList_id children]

theorem Child.rename_id : ∀ child : Child, child.rename id = child
  | .node tree => by rw [Child.rename, Node.rename_id tree]
  | .text _ => rfl

theorem Child.renameList_id : ∀ children : List Child, Child.renameList id children = children
  | [] => rfl
  | child :: rest => by rw [Child.renameList, Child.rename_id child, Child.renameList_id rest]

theorem Property.rename_id : ∀ property : Property, property.rename id = property
  | .data _ => rfl
  | .handler reaction => by rw [Property.rename, Handler.rename_id reaction]

theorem Property.renameList_id : ∀ properties : List (String × Property),
    Property.renameList id properties = properties
  | [] => rfl
  | (_, property) :: rest => by
    rw [Property.renameList, Property.rename_id property, Property.renameList_id rest]

theorem Handler.rename_id : ∀ handler : Handler, handler.rename id = handler
  | .action _ => rfl
  | .callback closure _ _ => by rw [Handler.rename, Closure.rename_id closure, id]

end

theorem Value.rename_of_fixed {relabel : Nat → Nat} {bound : Nat} (fixed : Agree bound relabel id)
    {value : Value} (below : value.Below bound) : value.rename relabel = value :=
  (Value.rename_congr fixed below).trans (Value.rename_id value)

section Lists

variable {bound : Nat} {relabel : Nat → Nat}

theorem Value.renameItems_eq_map (relabel : Nat → Nat) (items : List Value) :
    Value.renameItems relabel items = items.map (Value.rename relabel) := by
  induction items with
  | nil => rfl
  | cons item rest ih => rw [Value.renameItems, ih, List.map_cons]

theorem Value.itemsBelow_iff {items : List Value} :
    Value.ItemsBelow bound items ↔ ∀ item ∈ items, item.Below bound := by
  induction items with
  | nil => simp [Value.ItemsBelow]
  | cons item rest ih => simp [Value.ItemsBelow, ih]

theorem Value.entriesBelow_iff {entries : List (String × Value)} :
    Value.EntriesBelow bound entries ↔ ∀ entry ∈ entries, entry.2.Below bound := by
  induction entries with
  | nil => simp [Value.EntriesBelow]
  | cons entry rest ih => simp [Value.EntriesBelow, ih]

theorem Child.listBelow_iff {children : List Child} :
    Child.ListBelow bound children ↔ ∀ child ∈ children, child.Below bound := by
  induction children with
  | nil => simp [Child.ListBelow]
  | cons child rest ih => simp [Child.ListBelow, ih]

theorem Property.listBelow_iff {properties : List (String × Property)} :
    Property.ListBelow bound properties ↔ ∀ entry ∈ properties, entry.2.Below bound := by
  induction properties with
  | nil => simp [Property.ListBelow]
  | cons entry rest ih => simp [Property.ListBelow, ih]

theorem Child.renameList_append (relabel : Nat → Nat) (first second : List Child) :
    Child.renameList relabel (first ++ second) =
      Child.renameList relabel first ++ Child.renameList relabel second := by
  induction first with
  | nil => rfl
  | cons child rest ih => rw [List.cons_append, Child.renameList, ih, Child.renameList,
      List.cons_append]

theorem Child.listBelow_append {first second : List Child} (left : Child.ListBelow bound first)
    (right : Child.ListBelow bound second) : Child.ListBelow bound (first ++ second) := by
  induction first with
  | nil => exact right
  | cons child rest ih => exact ⟨left.1, ih left.2⟩

theorem Child.renameList_toList (relabel : Nat → Nat) (child : Option Child) :
    Child.renameList relabel child.toList = (child.map (Child.rename relabel)).toList := by
  cases child <;> rfl

end Lists

namespace Value

variable (relabel : Nat → Nat)

@[simp] theorem kind_rename (value : Value) : (value.rename relabel).kind = value.kind := by
  cases value <;> rfl

@[simp] theorem isCallable_rename (value : Value) :
    (value.rename relabel).isCallable = value.isCallable := by
  unfold isCallable
  rw [kind_rename]

@[simp] theorem isTruthy_rename (value : Value) : (value.rename relabel).isTruthy = value.isTruthy := by
  cases value <;> rfl

@[simp] theorem toNumber_rename (value : Value) : (value.rename relabel).toNumber = value.toNumber := by
  cases value <;> rfl

private theorem tag_rename (tree : Node) : (tree.rename relabel).tag = tree.tag := by
  cases tree
  rfl

mutual

@[simp] theorem display_rename : ∀ value : Value, (value.rename relabel).display = value.display
  | .null => rfl
  | .bool _ => rfl
  | .number _ => rfl
  | .text _ => rfl
  | .array _ items => by rw [rename, display, display, displayItems_renameItems items]
  | .object _ _ => rfl
  | .function _ => rfl
  | .builtin _ => rfl
  | .adder _ => rfl
  | .node _ tree => by rw [rename, display, display, tag_rename]

theorem displayItems_renameItems : ∀ items : List Value,
    displayItems (renameItems relabel items) = displayItems items
  | [] => rfl
  | item :: rest => by
    have first := display_rename item
    have others := displayItems_renameItems rest
    cases item <;> simp_all [renameItems, rename, displayItems]

end

variable {relabel}

theorem beq_of_injective (injective : ∀ {a b}, relabel a = relabel b → a = b) (a b : Nat) :
    (relabel a == relabel b) = (a == b) := by
  by_cases equal : a = b
  · rw [equal, beq_self_eq_true, beq_self_eq_true]
  · rw [beq_false_of_ne equal, beq_false_of_ne (fun same => equal (injective same))]

theorem same_rename (injective : ∀ {a b}, relabel a = relabel b → a = b) (first second : Value) :
    (first.rename relabel).same (second.rename relabel) = first.same second := by
  cases first <;> cases second <;> first | rfl | exact beq_of_injective injective _ _ | skip
  rename_i a b
  cases a
  cases b
  rfl

section Entries

variable {bound : Nat} {key : String} {entries : List (String × Value)}

theorem get?_renameEntries (relabel : Nat → Nat) (key : String) (entries : List (String × Value)) :
    Dictionary.get? key (renameEntries relabel entries) =
      (Dictionary.get? key entries).map (rename relabel) := by
  induction entries with
  | nil => rfl
  | cons entry rest ih =>
    obtain ⟨name, value⟩ := entry
    unfold renameEntries Dictionary.get?
    split
    · rfl
    · exact ih

theorem renameEntries_insert (relabel : Nat → Nat) (key : String) (value : Value)
    (entries : List (String × Value)) :
    renameEntries relabel (Dictionary.insert key value entries) =
      Dictionary.insert key (value.rename relabel) (renameEntries relabel entries) := by
  induction entries with
  | nil => rfl
  | cons entry rest ih =>
    obtain ⟨name, old⟩ := entry
    unfold Dictionary.insert
    rw [renameEntries]
    dsimp only
    split
    · rfl
    · split
      · rfl
      · rw [renameEntries, ih]

theorem renameEntries_ofEntries (relabel : Nat → Nat) (entries : List (String × Value)) :
    renameEntries relabel (Dictionary.ofEntries entries) =
      Dictionary.ofEntries (renameEntries relabel entries) := by
  have step : ∀ (entries before : List (String × Value)),
      renameEntries relabel
          (entries.foldl (fun all entry => Dictionary.insert entry.1 entry.2 all) before) =
        (renameEntries relabel entries).foldl (fun all entry => Dictionary.insert entry.1 entry.2 all)
          (renameEntries relabel before) := by
    intro entries
    induction entries with
    | nil => exact fun _ => rfl
    | cons entry rest ih =>
      intro before
      obtain ⟨name, value⟩ := entry
      rw [List.foldl_cons, ih, renameEntries_insert]
      rfl
  exact step entries []

theorem below_get? {value : Value} (below : EntriesBelow bound entries)
    (found : Dictionary.get? key entries = some value) : value.Below bound :=
  entriesBelow_iff.mp below _ (Dictionary.mem_of_get? found)

theorem below_ofEntries (below : EntriesBelow bound entries) :
    EntriesBelow bound (Dictionary.ofEntries entries) :=
  entriesBelow_iff.mpr fun entry member =>
    entriesBelow_iff.mp below entry (Dictionary.mem_of_mem_ofEntries member)

end Entries

end Value

end ScreenStudio
