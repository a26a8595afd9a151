/- digest: What holds of values, of syntax in its scope and of failures, and that expressions keep it. -/

import ScreenStudio.Proofs.Evaluation.Operators
import ScreenStudio.Proofs.Evaluation.Passage
import ScreenStudio.Proofs.Value.Confined

/-!
A law says what holds of the values, of the children and of the syntax in its scope that an evaluation
meets, and has to say why it goes on to hold: for every way to make a value, for what stands inside a
piece of syntax, for what stands behind a statement, and for the body of a function that is entered.
Expressions and statements then carry it from one part to the next.
-/

set_option autoImplicit false
set_option relaxedAutoImplicit false

namespace ScreenStudio.Evaluation

open Source (Span Literal Expression Statement Body)

/-- Syntax that is evaluated in one scope. -/
inductive Piece
  | expression (value : Expression)
  | items (values : List Expression)
  | entries (values : List (String × Expression))
  | statement (next : Statement)
  | block (statements : List Statement)

/-- The pieces that are evaluated in the scope of the whole. The body of an arrow function is none of
them, and neither is what stands behind the first statement of a block. -/
def Piece.inside : Piece → List Piece
  | .expression (.literal _ _) => []
  | .expression (.array _ list) => [.items list]
  | .expression (.object _ list) => [.entries list]
  | .expression (.name _ _) => []
  | .expression (.member _ target _) => [.expression target]
  | .expression (.index _ target key) => [.expression target, .expression key]
  | .expression (.call _ callee arguments) => [.expression callee, .items arguments]
  | .expression (.arrow _ _ _) => []
  | .expression (.unary _ _ operand) => [.expression operand]
  | .expression (.binary _ _ left right) => [.expression left, .expression right]
  | .expression (.conditional _ condition consequent alternative) =>
    [.expression condition, .expression consequent, .expression alternative]
  | .items [] => []
  | .items (item :: rest) => [.expression item, .items rest]
  | .entries [] => []
  | .entries ((_, item) :: rest) => [.expression item, .entries rest]
  | .statement (.binding _ _ value) => [.expression value]
  | .statement (.expression _ value) => [.expression value]
  | .statement (.branch _ condition consequent alternative) =>
    .expression condition :: .block consequent :: (alternative.map Piece.block).toList
  | .statement (.result _ value) => (value.map Piece.expression).toList
  | .block [] => []
  | .block (first :: _) => [.statement first]

def Piece.ofBody : Body → Piece
  | .expression value => .expression value
  | .block statements => .block statements

/-- The syntax that is evaluated at a point, with its scope. -/
def Activity.piece? : Activity → Option (Scope × Piece)
  | .expression scope value => some (scope, .expression value)
  | .items scope values => some (scope, .items values)
  | .entries scope values => some (scope, .entries values)
  | .statement scope next => some (scope, .statement next)
  | .block scope statements => some (scope, .block statements)
  | _ => none

/-- The values that an evaluation has before it. -/
def Activity.values : Activity → List Value
  | .expression scope _ => scope.map Prod.snd
  | .items scope _ => scope.map Prod.snd
  | .entries scope _ => scope.map Prod.snd
  | .statement scope _ => scope.map Prod.snd
  | .block scope _ => scope.map Prod.snd
  | .call request => request.callee :: request.arguments
  | .entered request => request.callee :: request.arguments
  | .collection builder _ => builder.toList
  | .content producer _ _ => producer.toList
  | .list renderer _ _ shown => renderer :: shown
  | .item renderer shown _ _ => [renderer, shown]

/-- A name that is made of letters. -/
def IsWord (name : String) : Prop := ∀ c ∈ name.toList, c.isAlpha = true

instance (name : String) : Decidable (IsWord name) :=
  List.decidableBAll (fun c : Char => c.isAlpha = true) name.toList

/-- The properties have words for names, and so have the entries of their objects. -/
def NamedByWords (properties : List (String × Property)) : Prop :=
  ∀ property ∈ properties, IsWord property.1 ∧
    ∀ entries, property.2 = .data (.object entries) → ∀ entry ∈ entries, IsWord entry.1

/-- The elements that builders make: a block, a button and an image, whose properties are named by words,
and what a label among the known builtins puts around a text. -/
inductive Built (known : Builtin → Prop) : String → List (String × Property) → List Child → Prop
  | block {properties : List (String × Property)} (named : NamedByWords properties)
    (children : List Child) : Built known "div" properties children
  | button {properties : List (String × Property)} (named : NamedByWords properties)
    (content : String) : Built known "button" properties [.text content]
  | image {properties : List (String × Property)} (named : NamedByWords properties) :
    Built known "img" properties []
  | label {name tag : String} (own : known ⟨name, .label tag⟩) (content : String) :
    Built known tag [] [.text content]

/-- What holds of values, children and placed syntax, and why evaluation keeps it. A property of values
may depend on the identities that have been handed out. -/
structure Law (source : String) where
  value : (bound : Nat) → Value → Prop
  child : (bound : Nat) → Child → Prop
  property : (bound : Nat) → Property → Prop
  placed : Scope → Piece → Prop
  reached : Point → Prop
  failure : RuntimeError → Prop
  value_mono : ∀ {low high made}, low ≤ high → value low made → value high made
  child_mono : ∀ {low high made}, low ≤ high → child low made → child high made
  property_mono : ∀ {low high made}, low ≤ high → property low made → property high made
  null : ∀ {bound}, value bound .null
  bool : ∀ {bound} content, value bound (.bool content)
  number : ∀ {bound} content, value bound (.number content)
  text : ∀ {bound} content, value bound (.text content)
  adder : ∀ {bound collector}, collector < bound → value bound (.adder collector)
  array : ∀ {bound identity items}, identity < bound → (∀ item ∈ items, value bound item) →
    value bound (.array identity items)
  item : ∀ {bound identity items}, value bound (.array identity items) →
    ∀ item ∈ items, value bound item
  object : ∀ {bound identity entries}, identity < bound →
    (∀ entry ∈ entries, value bound entry.2) → value bound (.object identity entries)
  entry : ∀ {bound identity entries}, value bound (.object identity entries) →
    ∀ entry ∈ entries, value bound entry.2
  arrow : ∀ {bound span parameters body scope}, placed scope (.expression (.arrow span parameters body)) →
    (∀ binding ∈ scope, value bound binding.2) →
    value bound (.function (.mk span parameters body scope))
  captured : ∀ {bound closure}, value bound (.function closure) →
    ∀ binding ∈ closure.scope, value bound binding.2
  node : ∀ {bound identity tree}, identity < bound → child bound (.node tree) →
    value bound (.node identity tree)
  tree : ∀ {bound identity tree}, value bound (.node identity tree) → child bound (.node tree)
  element : ∀ {bound tag properties children},
    Built (fun known => value bound (.builtin known)) tag properties children →
    (∀ entry ∈ properties, property bound entry.2) → (∀ inner ∈ children, child bound inner) →
    child bound (.node (.mk tag properties children))
  childText : ∀ {bound} content, child bound (.text content)
  data : ∀ {bound} content, property bound (.data content)
  action : ∀ {bound} content, property bound (.handler (.action content))
  callback : ∀ {bound closure fresh}, value fresh (.function closure) → fresh < bound →
    property bound (.handler (.callback closure source fresh))
  parts : ∀ {whole}, reached whole → ∀ part ∈ whole.parts source, reached part
  inside : ∀ {scope piece}, placed scope piece → ∀ inner ∈ piece.inside, placed scope inner
  behind : ∀ {room scope inner statement rest machine after},
    reached ⟨room, .statement scope statement, machine⟩ →
    executeStatement (callWithin source room) scope statement machine = (.ok (.goOn inner), after) →
    placed scope (.block (statement :: rest)) → placed inner (.block rest)
  body : ∀ {bound room name closure arguments span machine},
    reached ⟨room, .entered ⟨name, .function closure, arguments, span⟩, machine⟩ →
    value bound (.function closure) →
    placed (bindParameters closure.scope closure.parameters arguments) (.ofBody closure.body)
  raised : ∀ span fault frames, (∀ name, fault ≠ .notDefined name) →
    failure ⟨fault, traceFrom span frames⟩
  unbound : ∀ {span name scope} frames, placed scope (.expression (.name span name)) →
    Scope.lookup? name scope = none → failure ⟨.notDefined name, traceFrom span frames⟩

namespace Law

variable {source : String} (law : Law source)

theorem hereditary {bound : Nat} : Hereditary (law.value bound) where
  null := law.null
  bool := law.bool
  number := law.number
  text := law.text
  item := law.item
  entry := law.entry

/-- The law holds of the children that are collected in the machine and of its root. -/
structure Sound (machine : Machine) : Prop where
  collected : ∀ entry ∈ machine.collectors, ∀ child ∈ entry.2, law.child machine.next child
  root : ∀ tree, machine.root = some tree → law.child machine.next (.node tree)

/-- What the law says before an evaluation starts. -/
structure At (point : Point) : Prop where
  reached : law.reached point
  machine : law.Sound point.machine
  values : ∀ value ∈ point.activity.values, law.value point.machine.next value
  placed : ∀ scope piece, point.activity.piece? = some (scope, piece) → law.placed scope piece

/-- The run hands out identities upwards, keeps the machine sound, and ends with a result that is good or
with a failure that the law allows. -/
structure Yields {α : Type} (good : Nat → α → Prop) (low : Nat)
    (outcome : Except RuntimeError α × Machine) : Prop where
  next : low ≤ outcome.2.next
  machine : law.Sound outcome.2
  ok : ∀ value, outcome.1 = .ok value → good outcome.2.next value
  error : ∀ error, outcome.1 = .error error → law.failure error

def Values (bound : Nat) (values : List Value) : Prop := ∀ value ∈ values, law.value bound value

def Entries (bound : Nat) (entries : List (String × Value)) : Prop :=
  ∀ entry ∈ entries, law.value bound entry.2

def Children (bound : Nat) (children : List Child) : Prop :=
  ∀ child ∈ children, law.child bound child

def Flows (bound : Nat) : Flow → Prop
  | .next => True
  | .result value => law.value bound value

def Steps (bound : Nat) : Step → Prop
  | .goOn scope => law.Entries bound scope
  | .finish value => law.value bound value

/-- What the law says of the outcome of an evaluation. -/
def Outcome (point : Point) : Prop :=
  let call := callWithin source point.room
  let next := point.machine.next
  match point.activity with
  | .expression scope value => law.Yields law.value next (evaluate call scope value point.machine)
  | .items scope values => law.Yields law.Values next (evaluateItems call scope values point.machine)
  | .entries scope values =>
    law.Yields law.Entries next (evaluateEntries call scope values point.machine)
  | .statement scope statement =>
    law.Yields law.Steps next (executeStatement call scope statement point.machine)
  | .block scope statements =>
    law.Yields law.Flows next (executeBlock call scope statements point.machine)
  | .call request => law.Yields law.value next (call request point.machine)
  | .entered request => law.Yields law.value next (enter source call request point.machine)
  | .collection builder span =>
    law.Yields law.Children next (childrenOf call builder span point.machine)
  | .content content absent span =>
    law.Yields (fun _ _ => True) next (contentOf call content absent span point.machine)
  | .list renderer span index items =>
    law.Yields law.Children next (itemChildren call renderer span index items point.machine)
  | .item renderer item index span =>
    law.Yields law.child next (itemChild call renderer item index span point.machine)

/-- From parts at which the law holds, and of whose outcomes it then holds, the run ends as the law says
and the law holds at the parts. -/
def Carries {α : Type} (good : Nat → α → Prop) (machine : Machine) (run : Run α)
    (parts : List Point) : Prop :=
  (∀ part ∈ parts, law.reached part ∧ (law.At part → law.Outcome part)) →
    (∀ part ∈ parts, law.At part) ∧ law.Yields good machine.next (run machine)

/-- What the law says before a part starts, but that it is reached. -/
structure Ready (point : Point) : Prop where
  machine : law.Sound point.machine
  values : ∀ value ∈ point.activity.values, law.value point.machine.next value
  placed : ∀ scope piece, point.activity.piece? = some (scope, piece) → law.placed scope piece

variable {law}

theorem Ready.here {point : Point} (ready : law.Ready point) (reached : law.reached point) :
    law.At point := ⟨reached, ready.machine, ready.values, ready.placed⟩

theorem Sound.mono {before after : Machine} (sound : law.Sound before)
    (le : before.next ≤ after.next) (collectors : after.collectors = before.collectors)
    (root : after.root = before.root) : law.Sound after := by
  refine ⟨?_, ?_⟩
  · rw [collectors]
    exact fun entry member child inside => law.child_mono le (sound.collected entry member child inside)
  · rw [root]
    exact fun tree is => law.child_mono le (sound.root tree is)

section Runs

variable {α β : Type} {good : Nat → α → Prop} {also : Nat → β → Prop} {machine : Machine}

theorem yields_succeed {value : α} (sound : law.Sound machine) (held : good machine.next value) :
    law.Yields good machine.next (Run.succeed value machine) :=
  ⟨Nat.le_refl _, sound, fun _ is => Except.ok.inj is ▸ held, fun _ is => (by cases is)⟩

theorem yields_fail (span : Span) {fault : Fault} (sound : law.Sound machine)
    (other : ∀ name, fault ≠ .notDefined name) :
    law.Yields good machine.next (Run.fail span fault machine) :=
  ⟨Nat.le_refl _, sound, fun _ is => (by cases is),
    fun _ is => Except.error.inj is ▸ law.raised span fault machine.frames other⟩

theorem yields_identity (sound : law.Sound machine) :
    law.Yields (fun bound identity => identity < bound) machine.next (Run.identity machine) :=
  ⟨Nat.le_succ _, sound.mono (Nat.le_succ _) rfl rfl,
    fun _ is => Except.ok.inj is ▸ Nat.lt_succ_self _, fun _ is => (by cases is)⟩

theorem yields_bind {run : Run α} {next : α → Run β}
    (first : law.Yields good machine.next (run machine))
    (others : ∀ value after, run machine = (.ok value, after) → machine.next ≤ after.next →
      law.Sound after → good after.next value → law.Yields also after.next (next value after)) :
    law.Yields also machine.next ((run >>= next) machine) := by
  cases ran : run machine with
  | mk result after =>
    rw [ran] at first
    cases result with
    | error error =>
      rw [Run.bind_of_error ran]
      exact ⟨first.next, first.machine, fun _ is => (by cases is),
        fun failure is => first.error failure (congrArg Except.error (Except.error.inj is))⟩
    | ok value =>
      rw [Run.bind_of_ok ran]
      have rest := others value after ran first.next first.machine (first.ok value rfl)
      exact ⟨Nat.le_trans first.next rest.next, rest.machine, rest.ok, rest.error⟩

theorem carries_own {run : Run α} (yields : law.Yields good machine.next (run machine)) :
    law.Carries good machine run [] := fun _ => ⟨List.forall_mem_nil _, yields⟩

theorem carries_own_bind {run : Run α} {next : α → Run β} {rest : α → Machine → List Point}
    (own : law.Yields good machine.next (run machine))
    (others : ∀ value after, run machine = (.ok value, after) → machine.next ≤ after.next →
      law.Sound after → good after.next value → law.Carries also after (next value) (rest value after)) :
    law.Carries also machine (run >>= next) (following (run machine) rest) := by
  intro given
  cases ran : run machine with
  | mk result after =>
    rw [ran] at own given
    cases result with
    | error error =>
      rw [Run.bind_of_error ran]
      exact ⟨List.forall_mem_nil _, own.next, own.machine, fun _ is => (by cases is),
        fun failure is => own.error failure (congrArg Except.error (Except.error.inj is))⟩
    | ok value =>
      rw [Run.bind_of_ok ran]
      obtain ⟨held, yields⟩ := others value after ran own.next own.machine (own.ok value rfl) given
      exact ⟨held, Nat.le_trans own.next yields.next, yields.machine, yields.ok, yields.error⟩

theorem carries_bind {run : Run α} {next : α → Run β} {point : Point}
    {rest : α → Machine → List Point} (ready : law.Ready point)
    (same : law.Outcome point → law.Yields good machine.next (run machine))
    (others : ∀ value after, run machine = (.ok value, after) → machine.next ≤ after.next →
      law.Sound after → good after.next value → law.Carries also after (next value) (rest value after)) :
    law.Carries also machine (run >>= next) (point :: following (run machine) rest) := by
  intro given
  obtain ⟨⟨reached, kept⟩, behind⟩ := List.forall_mem_cons.mp given
  obtain ⟨held, yields⟩ := carries_own_bind (same (kept (ready.here reached))) others behind
  exact ⟨List.forall_mem_cons.mpr ⟨ready.here reached, held⟩, yields⟩

theorem carries_last {run : Run α} {next : α → Run β} {point : Point} (ready : law.Ready point)
    (same : law.Outcome point → law.Yields good machine.next (run machine))
    (others : ∀ value after, machine.next ≤ after.next → law.Sound after → good after.next value →
      law.Yields also after.next (next value after)) :
    law.Carries also machine (run >>= next) [point] := by
  intro given
  obtain ⟨⟨reached, kept⟩, _⟩ := List.forall_mem_cons.mp given
  refine ⟨List.forall_mem_cons.mpr ⟨ready.here reached, List.forall_mem_nil _⟩, ?_⟩
  exact yields_bind (same (kept (ready.here reached))) (fun value after _ => others value after)

theorem carries_point {run : Run α} {point : Point} (ready : law.Ready point)
    (same : law.Outcome point → law.Yields good machine.next (run machine)) :
    law.Carries good machine run [point] := by
  intro given
  obtain ⟨⟨reached, kept⟩, _⟩ := List.forall_mem_cons.mp given
  exact ⟨List.forall_mem_cons.mpr ⟨ready.here reached, List.forall_mem_nil _⟩,
    same (kept (ready.here reached))⟩

end Runs

theorem entries_mono {low high : Nat} (le : low ≤ high) {entries : List (String × Value)}
    (held : law.Entries low entries) : law.Entries high entries :=
  fun entry member => law.value_mono le (held entry member)

theorem values_mono {low high : Nat} (le : low ≤ high) {values : List Value}
    (held : law.Values low values) : law.Values high values :=
  fun value member => law.value_mono le (held value member)

/-- The law holds of what is bound in the scope and of the piece in it. -/
structure Scoped (law : Law source) (bound : Nat) (scope : Scope) (piece : Piece) : Prop where
  entries : law.Entries bound scope
  placed : law.placed scope piece

theorem Scoped.inner {low high : Nat} {scope : Scope} {piece inner : Piece}
    (fits : law.Scoped low scope piece) (le : low ≤ high) (member : inner ∈ piece.inside) :
    law.Scoped high scope inner :=
  ⟨entries_mono le fits.entries, law.inside fits.placed inner member⟩

theorem At.fits {point : Point} (here : law.At point) {scope : Scope} {piece : Piece}
    (is : point.activity.piece? = some (scope, piece)) :
    law.Scoped point.machine.next scope piece := by
  refine ⟨fun entry member => here.values _ ?_, here.placed scope piece is⟩
  obtain ⟨room, activity, machine⟩ := point
  cases activity <;> cases is <;> exact List.mem_map_of_mem member

theorem Scoped.ready {room : Nat} {activity : Activity} {machine : Machine} {scope : Scope}
    {piece : Piece} (fits : law.Scoped machine.next scope piece) (sound : law.Sound machine)
    (is : activity.piece? = some (scope, piece)) : law.Ready ⟨room, activity, machine⟩ := by
  refine ⟨sound, ?_, ?_⟩
  · have values : activity.values = scope.map Prod.snd := by cases activity <;> cases is <;> rfl
    show ∀ value ∈ activity.values, _
    rw [values]
    exact List.forall_mem_map.mpr fits.entries
  · intro other piece same
    cases is.symm.trans same
    exact fits.placed

section Operators

variable {machine : Machine}

private theorem yields_memberOf (sound : law.Sound machine) {target : Value}
    (held : law.value machine.next target) (property : String) (span : Span) :
    law.Yields law.value machine.next (memberOf target property span machine) := by
  obtain failed | ⟨value, has, read⟩ := law.hereditary.memberOf held property span
  · rw [failed]
    exact yields_fail span sound (fun _ is => by cases is)
  · rw [read]
    exact yields_succeed sound has

private theorem yields_indexOf (sound : law.Sound machine) {target : Value}
    (held : law.value machine.next target) (key : Value) (span : Span) :
    law.Yields law.value machine.next (indexOf target key span machine) := by
  obtain failed | ⟨value, has, read⟩ := law.hereditary.indexOf held key span
  · rw [failed]
    exact yields_fail span sound (fun _ is => by cases is)
  · rw [read]
    exact yields_succeed sound has

end Operators

section Syntax

variable {room : Nat} {machine : Machine} {scope : Scope}

theorem carries_evaluate (sound : law.Sound machine) {value : Expression}
    (fits : law.Scoped machine.next scope (.expression value)) :
    law.Carries law.value machine (evaluate (callWithin source room) scope value)
      (expressionParts room (callWithin source room) machine scope value) := by
  cases value with
  | literal span value =>
    rw [evaluate]
    exact carries_own (yields_succeed sound (law.hereditary.literalValue value))
  | array span items =>
    rw [evaluate]
    refine carries_last ((fits.inner (Nat.le_refl _) (by simp [Piece.inside])).ready sound rfl) id ?_
    intro values middle _ sound held
    refine yields_bind (yields_identity sound) (fun identity after _ le sound less => ?_)
    exact yields_succeed sound (law.array less (values_mono le held))
  | object span entries =>
    rw [evaluate]
    refine carries_last ((fits.inner (Nat.le_refl _) (by simp [Piece.inside])).ready sound rfl) id ?_
    intro values middle _ sound held
    refine yields_bind (yields_identity sound) (fun identity after _ le sound less => ?_)
    refine yields_succeed sound (law.object less (fun entry member => ?_))
    exact entries_mono le held entry (Dictionary.mem_of_mem_ofEntries member)
  | name span name =>
    rw [evaluate]
    split
    · rename_i value found
      rw [Value.lookup?_eq_get?] at found
      exact carries_own (yields_succeed sound (fits.entries _ (Dictionary.mem_of_get? found)))
    · rename_i missing
      exact carries_own ⟨Nat.le_refl _, sound, fun _ is => (by cases is),
        fun _ is => Except.error.inj is ▸ law.unbound machine.frames fits.placed missing⟩
  | member span target property =>
    rw [evaluate]
    refine carries_last ((fits.inner (Nat.le_refl _) (by simp [Piece.inside])).ready sound rfl) id ?_
    exact fun value after _ sound held => yields_memberOf sound held property span
  | index span target key =>
    rw [evaluate]
    refine carries_bind ((fits.inner (Nat.le_refl _) (by simp [Piece.inside])).ready sound rfl) id ?_
    intro value middle _ le sound held
    refine carries_last ((fits.inner le (by simp [Piece.inside])).ready sound rfl) id ?_
    intro key after le sound _
    exact yields_indexOf sound (law.value_mono le held) key span
  | call span callee arguments =>
    rw [evaluate]
    refine carries_bind ((fits.inner (Nat.le_refl _) (by simp [Piece.inside])).ready sound rfl) id ?_
    intro function middle _ le sound callable
    refine carries_bind ((fits.inner le (by simp [Piece.inside])).ready sound rfl) id ?_
    intro values after _ le sound held
    refine carries_point ⟨sound, ?_, fun _ _ is => (by cases is)⟩ id
    exact List.forall_mem_cons.mpr ⟨law.value_mono le callable, held⟩
  | arrow span parameters body =>
    rw [evaluate]
    exact carries_own (yields_succeed sound (law.arrow fits.placed fits.entries))
  | unary span operator operand =>
    rw [evaluate]
    refine carries_last ((fits.inner (Nat.le_refl _) (by simp [Piece.inside])).ready sound rfl) id ?_
    exact fun value after _ sound _ => yields_succeed sound (law.hereditary.applyUnary operator value)
  | binary span operator left right =>
    rw [evaluate]
    refine carries_bind ((fits.inner (Nat.le_refl _) (by simp [Piece.inside])).ready sound rfl) id ?_
    intro value after _ le sound held
    have decided : law.Carries law.value after (Run.succeed value) [] :=
      carries_own (yields_succeed sound held)
    have ready : law.Ready ⟨room, .expression scope right, after⟩ :=
      (fits.inner le (by simp [Piece.inside])).ready sound rfl
    have second : law.Carries law.value after (evaluate (callWithin source room) scope right)
        [⟨room, .expression scope right, after⟩] := carries_point ready id
    cases operator with
    | or =>
      cases truth : value.isTruthy with
      | true =>
        simp only [isDecided, truth]
        exact decided
      | false =>
        simp only [isDecided, truth]
        exact second
    | and =>
      cases truth : value.isTruthy with
      | true =>
        simp only [isDecided, truth]
        exact second
      | false =>
        simp only [isDecided, truth]
        exact decided
    | _ =>
      refine carries_last ready id (fun other last le sound also => ?_)
      exact yields_succeed sound (law.hereditary.applyBinary _ (law.value_mono le held) also)
  | conditional span condition consequent alternative =>
    rw [evaluate]
    refine carries_bind ((fits.inner (Nat.le_refl _) (by simp [Piece.inside])).ready sound rfl) id ?_
    intro value after _ le sound _
    split
    · exact carries_point ((fits.inner le (by simp [Piece.inside])).ready sound rfl) id
    · exact carries_point ((fits.inner le (by simp [Piece.inside])).ready sound rfl) id

theorem carries_evaluateItems (sound : law.Sound machine) {values : List Expression}
    (fits : law.Scoped machine.next scope (.items values)) :
    law.Carries law.Values machine (evaluateItems (callWithin source room) scope values)
      (activityParts source room (callWithin source room) machine (.items scope values)) := by
  cases values with
  | nil =>
    rw [evaluateItems]
    exact carries_own (yields_succeed sound (List.forall_mem_nil _))
  | cons item rest =>
    rw [evaluateItems]
    refine carries_bind ((fits.inner (Nat.le_refl _) (by simp [Piece.inside])).ready sound rfl) id ?_
    intro value middle _ le sound held
    refine carries_last ((fits.inner le (by simp [Piece.inside])).ready sound rfl) id ?_
    intro values after le sound others
    exact yields_succeed sound (List.forall_mem_cons.mpr ⟨law.value_mono le held, others⟩)

theorem carries_evaluateEntries (sound : law.Sound machine)
    {values : List (String × Expression)}
    (fits : law.Scoped machine.next scope (.entries values)) :
    law.Carries law.Entries machine (evaluateEntries (callWithin source room) scope values)
      (activityParts source room (callWithin source room) machine (.entries scope values)) := by
  cases values with
  | nil =>
    rw [evaluateEntries]
    exact carries_own (yields_succeed sound (List.forall_mem_nil _))
  | cons entry rest =>
    obtain ⟨key, item⟩ := entry
    rw [evaluateEntries]
    refine carries_bind ((fits.inner (Nat.le_refl _) (by simp [Piece.inside])).ready sound rfl) id ?_
    intro value middle _ le sound held
    refine carries_last ((fits.inner le (by simp [Piece.inside])).ready sound rfl) id ?_
    intro values after le sound others
    exact yields_succeed sound (List.forall_mem_cons.mpr ⟨law.value_mono le held, others⟩)

theorem carries_executeStatement (sound : law.Sound machine) {statement : Statement}
    (fits : law.Scoped machine.next scope (.statement statement)) :
    law.Carries law.Steps machine (executeStatement (callWithin source room) scope statement)
      (statementParts room (callWithin source room) machine scope statement) := by
  have finished : ∀ (flow : Flow) (middle after : Machine), machine.next ≤ middle.next →
      middle.next ≤ after.next → law.Sound after → law.Flows after.next flow →
      law.Yields law.Steps after.next ((match flow with
        | .next => pure (.goOn scope)
        | .result value => pure (.finish value) : Run Step) after) := by
    intro flow middle after first second sound held
    cases flow with
    | next =>
      have bound : law.Steps after.next (.goOn scope) :=
        entries_mono (Nat.le_trans first second) fits.entries
      exact yields_succeed sound bound
    | result value => exact yields_succeed sound held
  cases statement with
  | binding span name value =>
    rw [executeStatement]
    refine carries_last ((fits.inner (Nat.le_refl _) (by simp [Piece.inside])).ready sound rfl) id ?_
    intro value after le sound held
    have bound : law.Steps after.next (.goOn (Scope.bind name value scope)) :=
      List.forall_mem_cons.mpr ⟨held, entries_mono le fits.entries⟩
    exact yields_succeed sound bound
  | expression span value =>
    rw [executeStatement]
    refine carries_last ((fits.inner (Nat.le_refl _) (by simp [Piece.inside])).ready sound rfl) id ?_
    intro value after le sound _
    have bound : law.Steps after.next (.goOn scope) := entries_mono le fits.entries
    exact yields_succeed sound bound
  | branch span condition consequent alternative =>
    rw [executeStatement]
    refine carries_bind ((fits.inner (Nat.le_refl _) (by simp [Piece.inside])).ready sound rfl) id ?_
    intro value middle _ le sound _
    dsimp only
    split
    · refine carries_last ((fits.inner le (by simp [Piece.inside])).ready sound rfl) id ?_
      exact fun flow after more sound held => finished flow middle after le more sound held
    · cases alternative with
      | none => exact carries_own (finished .next middle middle le (Nat.le_refl _) sound trivial)
      | some statements =>
        refine carries_last ((fits.inner le (by simp [Piece.inside])).ready sound rfl) id ?_
        exact fun flow after more sound held => finished flow middle after le more sound held
  | result span value =>
    cases value with
    | none =>
      rw [executeStatement]
      exact carries_own (yields_succeed sound law.null)
    | some value =>
      rw [executeStatement]
      refine carries_last ((fits.inner (Nat.le_refl _) (by simp [Piece.inside])).ready sound rfl) id ?_
      exact fun value after _ sound held => yields_succeed sound held

theorem carries_executeBlock (sound : law.Sound machine) {statements : List Statement}
    (fits : law.Scoped machine.next scope (.block statements))
    (reached : law.reached ⟨room, .block scope statements, machine⟩) :
    law.Carries law.Flows machine (executeBlock (callWithin source room) scope statements)
      (activityParts source room (callWithin source room) machine (.block scope statements)) := by
  cases statements with
  | nil =>
    rw [executeBlock]
    exact carries_own (yields_succeed sound trivial)
  | cons statement rest =>
    have first : law.reached ⟨room, .statement scope statement, machine⟩ :=
      law.parts reached _ List.mem_cons_self
    rw [executeBlock]
    refine carries_bind ((fits.inner (Nat.le_refl _) (by simp [Piece.inside])).ready sound rfl) id ?_
    intro step after ran le sound held
    cases step with
    | goOn inner =>
      have placed := law.behind first ran fits.placed
      exact carries_point (Scoped.ready ⟨held, placed⟩ sound rfl) id
    | finish value => exact carries_own (yields_succeed sound held)

end Syntax

end Law

end ScreenStudio.Evaluation
