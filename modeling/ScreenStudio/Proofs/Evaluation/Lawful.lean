/- digest: A law that holds where an evaluation starts holds at every point within it. -/

import ScreenStudio.Proofs.Evaluation.Law

set_option autoImplicit false
set_option relaxedAutoImplicit false

namespace ScreenStudio.Evaluation

open Source (Span)

namespace Law

variable {source : String} {law : Law source}

section Builders

variable {room : Nat} {machine : Machine} {arguments : List Value} {span : Span}

private theorem values_head {bound : Nat} (held : law.Values bound arguments) :
    ∀ value, arguments.head? = some value → law.value bound value :=
  fun value is => held value (List.mem_of_head? is)

private theorem values_second {bound : Nat} (held : law.Values bound arguments) :
    ∀ value, arguments[1]? = some value → law.value bound value :=
  fun value is => held value (List.mem_of_getElem? is)

private theorem ready_call (sound : law.Sound machine) {callee : Value}
    (callable : law.value machine.next callee) (held : law.Values machine.next arguments) :
    law.Ready ⟨room, .call ⟨traceName callee, callee, arguments, span⟩, machine⟩ :=
  ⟨sound, List.forall_mem_cons.mpr ⟨callable, held⟩, fun _ _ is => (by cases is)⟩

private theorem ready_collection (sound : law.Sound machine) {builder : Option Value}
    (held : ∀ value, builder = some value → law.value machine.next value) :
    law.Ready ⟨room, .collection builder span, machine⟩ :=
  ⟨sound, fun value member => held value (Option.mem_toList.mp member), fun _ _ is => (by cases is)⟩

private theorem ready_content (sound : law.Sound machine) {producer : Option Value} {absent : String}
    (held : ∀ value, producer = some value → law.value machine.next value) :
    law.Ready ⟨room, .content producer absent span, machine⟩ :=
  ⟨sound, fun value member => held value (Option.mem_toList.mp member), fun _ _ is => (by cases is)⟩

private theorem yields_newNode (sound : law.Sound machine) {tag : String}
    {properties : List (String × Property)} {children : List Child}
    (built : Built (fun known => law.value (machine.next + 1) (.builtin known)) tag properties children)
    (own : ∀ entry ∈ properties, law.property (machine.next + 1) entry.2)
    (inner : law.Children machine.next children) :
    law.Yields law.value machine.next (newNode tag properties children machine) := by
  have le := Nat.le_succ machine.next
  have tree : law.child (machine.next + 1) (.node (.mk tag properties children)) :=
    law.element built own (fun child member => law.child_mono le (inner child member))
  exact ⟨le, sound.mono le rfl rfl,
    fun _ is => Except.ok.inj is ▸ law.node (Nat.lt_succ_self _) tree, fun _ is => (by cases is)⟩

private theorem properties_style {bound : Nat} (entries : List (String × String)) :
    ∀ entry ∈ [style entries], law.property bound entry.2 :=
  List.forall_mem_cons.mpr ⟨law.data _, List.forall_mem_nil _⟩

private theorem namedByWords_style {entries : List (String × String)}
    (words : ∀ entry ∈ entries, IsWord entry.1) : NamedByWords [style entries] := by
  refine List.forall_mem_cons.mpr ⟨⟨(by decide : IsWord "style"), ?_⟩, List.forall_mem_nil _⟩
  rintro declarations is entry member
  cases is
  obtain ⟨origin, inside, rfl⟩ := List.mem_map.mp member
  exact words origin inside

private theorem namedByWords_text {name content : String} {properties : List (String × Property)}
    (word : IsWord name) (others : NamedByWords properties) :
    NamedByWords ((name, .data (.text content)) :: properties) :=
  List.forall_mem_cons.mpr ⟨⟨word, fun _ is => by cases is⟩, others⟩

private theorem children_text {bound : Nat} (content : String) :
    law.Children bound [.text content] :=
  List.forall_mem_cons.mpr ⟨law.childText content, List.forall_mem_nil _⟩

private theorem yields_handlerOf (sound : law.Sound machine) {action : Option Value}
    (held : ∀ value, action = some value → law.value machine.next value) :
    law.Yields (fun bound listener => ∀ handler, listener = some handler →
      law.property (bound + 1) (.handler handler)) machine.next (handlerOf source action span machine) := by
  have acted : ∀ content, law.Yields (fun bound listener => ∀ handler, listener = some handler →
      law.property (bound + 1) (.handler handler)) machine.next
      (Run.succeed (some (Handler.action content)) machine) :=
    fun content => yields_succeed sound (fun _ is => Option.some.inj is ▸ law.action content)
  cases action with
  | none => exact yields_succeed sound (fun _ is => (by cases is))
  | some action =>
    cases action with
    | null => exact yields_succeed sound (fun _ is => (by cases is))
    | function closure =>
      have kept := law.callback (held _ rfl) (Nat.lt_succ_self machine.next)
      exact yields_succeed sound (fun _ is => Option.some.inj is ▸ kept)
    | builtin known => exact yields_fail span sound (fun _ is => by cases is)
    | adder collector => exact yields_fail span sound (fun _ is => by cases is)
    | _ => exact acted _

private theorem yields_itemsOf (sound : law.Sound machine) {items : Option Value}
    (held : ∀ value, items = some value → law.value machine.next value) :
    law.Yields law.Values machine.next (itemsOf items span machine) := by
  cases items with
  | none => exact yields_succeed sound (List.forall_mem_nil _)
  | some items =>
    cases items with
    | null => exact yields_succeed sound (List.forall_mem_nil _)
    | array identity items => exact yields_succeed sound (law.item (held _ rfl))
    | _ => exact yields_fail span sound (fun _ is => by cases is)

private theorem yields_childOf (sound : law.Sound machine) {value : Value}
    (held : law.value machine.next value) :
    law.Yields (fun bound made => law.Children bound made.toList) machine.next
      (childOf value span machine) := by
  have text : ∀ content, law.Yields (fun bound made => law.Children bound made.toList) machine.next
      (Run.succeed (some (Child.text content)) machine) :=
    fun content => yields_succeed sound (children_text content)
  cases value with
  | null => exact yields_succeed sound (List.forall_mem_nil _)
  | node identity tree =>
    refine yields_succeed sound ?_
    exact List.forall_mem_cons.mpr ⟨law.tree held, List.forall_mem_nil _⟩
  | text content => exact text content
  | number value => exact text _
  | bool value => exact text _
  | _ => exact yields_fail span sound (fun _ is => by cases is)

private theorem carries_container (sound : law.Sound machine) (held : law.Values machine.next arguments)
    {entries : List (String × String)} (words : ∀ entry ∈ entries, IsWord entry.1) :
    law.Carries law.value machine
      (childrenOf (callWithin source room) arguments.head? span >>= newNode "div" [style entries])
      [⟨room, .collection arguments.head? span, machine⟩] := by
  refine carries_last (ready_collection sound (values_head held)) id ?_
  exact fun children after _ sound inner =>
    yields_newNode sound (.block (namedByWords_style words) children) (properties_style entries) inner

private theorem carries_text (sound : law.Sound machine) (held : law.Values machine.next arguments) :
    law.Carries law.value machine (Evaluation.text (callWithin source room) arguments span)
      [⟨room, .content arguments.head? "" span, machine⟩] := by
  refine carries_last (ready_content sound (values_head held)) id ?_
  exact fun content after _ sound _ =>
    yields_newNode sound (.block (namedByWords_style (by decide)) _) (properties_style _)
      (children_text content)

private theorem carries_button (sound : law.Sound machine) (held : law.Values machine.next arguments) :
    law.Carries law.value machine (button source (callWithin source room) arguments span)
      (builtinParts source room machine .button arguments span) := by
  refine carries_own_bind (yields_handlerOf sound (values_head held)) ?_
  intro listener middle _ le sound kept
  refine carries_last (ready_content sound (values_second (values_mono le held))) id ?_
  intro label after above sound _
  have listening : NamedByWords (listener.toList.map (fun handler =>
      ("onClick", Property.handler handler))) := by
    refine List.forall_mem_map.mpr (fun handler _ => ⟨(by decide : IsWord "onClick"), ?_⟩)
    exact fun _ is => by cases is
  refine yields_newNode sound (.button (namedByWords_text (by decide) listening) label) ?_
    (children_text label)
  refine List.forall_mem_cons.mpr ⟨law.data _, ?_⟩
  cases listener with
  | none => exact List.forall_mem_nil _
  | some handler =>
    have reaction := kept handler rfl
    refine List.forall_mem_cons.mpr ⟨?_, List.forall_mem_nil _⟩
    exact law.property_mono (Nat.succ_le_succ above) reaction

private theorem carries_lazyColumn (sound : law.Sound machine)
    (held : law.Values machine.next arguments) :
    law.Carries law.value machine (lazyColumn (callWithin source room) arguments span)
      (builtinParts source room machine .lazyColumn arguments span) := by
  refine carries_own_bind (yields_itemsOf sound (values_head held)) ?_
  intro items middle _ le sound inner
  dsimp only
  split
  · have callable := law.hereditary.getD (values_second (values_mono le held))
    have ready : law.Ready ⟨room, .list (arguments[1]?.getD .null) span 0 items, middle⟩ :=
      ⟨sound, List.forall_mem_cons.mpr ⟨callable, inner⟩, fun _ _ is => (by cases is)⟩
    refine carries_last ready id ?_
    exact fun children after _ sound inner =>
      yields_newNode sound (.block (namedByWords_style (by decide)) children) (properties_style _) inner
  · exact carries_own (yields_fail span sound (fun _ is => by cases is))

private theorem carries_render (sound : law.Sound machine) (held : law.Values machine.next arguments) :
    law.Carries law.value machine (render (callWithin source room) arguments span)
      (builtinParts source room machine .render arguments span) := by
  unfold render builtinParts
  dsimp only
  split
  · have callable := law.hereditary.getD (values_head held)
    refine carries_last (ready_call sound callable (List.forall_mem_nil _)) id ?_
    intro produced after _ sound made
    cases produced with
    | node identity tree =>
      have replaced : law.Sound { after with root := some tree } :=
        ⟨sound.collected, fun _ is => Option.some.inj is ▸ law.tree made⟩
      exact yields_succeed replaced law.null
    | _ => exact yields_fail span sound (fun _ is => by cases is)
  · exact carries_own (yields_fail span sound (fun _ is => by cases is))

private theorem yields_execute (sound : law.Sound machine) (arguments : List Value) :
    law.Yields law.value machine.next (execute arguments machine) := by
  have performed : ∀ action, law.Yields law.value machine.next
      ((Run.dispatch action >>= fun _ => pure .null : Run Value) machine) :=
    fun action => ⟨Nat.le_refl _, sound.mono (Nat.le_refl _) rfl rfl,
      fun _ is => Except.ok.inj is ▸ law.null, fun _ is => (by cases is)⟩
  unfold execute
  cases arguments.head? with
  | none => exact yields_succeed sound law.null
  | some action =>
    cases action with
    | null => exact yields_succeed sound law.null
    | _ => exact performed _

private theorem yields_logLine (sound : law.Sound machine) (arguments : List Value) :
    law.Yields law.value machine.next (logLine arguments machine) :=
  ⟨Nat.le_refl _, sound.mono (Nat.le_refl _) rfl rfl, fun _ is => Except.ok.inj is ▸ law.null,
    fun _ is => (by cases is)⟩

private theorem carries_runBuiltin (sound : law.Sound machine) {known : Builtin}
    (callable : law.value machine.next (.builtin known)) (held : law.Values machine.next arguments) :
    law.Carries law.value machine
      (runBuiltin source (callWithin source room) known.behaviour arguments span)
      (builtinParts source room machine known.behaviour arguments span) := by
  obtain ⟨name, behaviour⟩ := known
  cases behaviour with
  | column => exact carries_container sound held (by decide)
  | row => exact carries_container sound held (by decide)
  | text => exact carries_text sound held
  | button => exact carries_button sound held
  | image =>
    refine carries_own (yields_newNode sound (.image ?_) ?_ (List.forall_mem_nil _))
    · refine namedByWords_text (by decide) ?_
      refine List.forall_mem_cons.mpr ⟨⟨(by decide : IsWord "style"), ?_⟩, List.forall_mem_nil _⟩
      rintro declarations is
      cases is
      exact List.forall_mem_cons.mpr ⟨(by decide : IsWord "borderRadius"), List.forall_mem_cons.mpr
        ⟨(by decide : IsWord "maxWidth"), List.forall_mem_nil _⟩⟩
    refine List.forall_mem_cons.mpr ⟨law.data _, List.forall_mem_cons.mpr ⟨law.data _, ?_⟩⟩
    exact List.forall_mem_nil _
  | lazyColumn => exact carries_lazyColumn sound held
  | render => exact carries_render sound held
  | execute => exact carries_own (yields_execute sound arguments)
  | log => exact carries_own (yields_logLine sound arguments)
  | label tag =>
    have own := law.value_mono (Nat.le_succ machine.next) callable
    exact carries_own (yields_newNode sound (.label own _) (List.forall_mem_nil _) (children_text _))

private theorem carries_contentOf (sound : law.Sound machine) {producer : Option Value}
    (held : ∀ value, producer = some value → law.value machine.next value) (absent : String) :
    law.Carries (fun _ _ => True) machine (contentOf (callWithin source room) producer absent span)
      (activityParts source room (callWithin source room) machine (.content producer absent span)) := by
  cases producer with
  | none => exact carries_own (yields_succeed sound trivial)
  | some content =>
    unfold contentOf activityParts
    dsimp only
    split
    · refine carries_last (ready_call sound (held content rfl) (List.forall_mem_nil _)) id ?_
      intro produced after _ sound _
      cases produced <;> exact yields_succeed sound trivial
    · split
      · exact carries_own (yields_succeed sound trivial)
      · exact carries_own (yields_succeed sound trivial)

private theorem carries_itemChild (sound : law.Sound machine) {renderer item : Value}
    (callable : law.value machine.next renderer) (held : law.value machine.next item) (index : Nat) :
    law.Carries law.child machine (itemChild (callWithin source room) renderer item index span)
      (activityParts source room (callWithin source room) machine
        (.item renderer item index span)) := by
  have given : law.Values machine.next [item, .number (Number.ofInt index)] :=
    List.forall_mem_cons.mpr ⟨held, List.forall_mem_cons.mpr
      ⟨law.number _, List.forall_mem_nil _⟩⟩
  refine carries_last (ready_call sound callable given) id ?_
  intro rendered middle _ sound made
  refine yields_bind (yields_childOf sound made) ?_
  intro child after _ _ sound inner
  cases child with
  | none => exact yields_fail span sound (fun _ is => by cases is)
  | some child => exact yields_succeed sound (inner child List.mem_cons_self)

private theorem yields_itemShown {call : Caller} {renderer item : Value} {index : Nat}
    (rendered : law.Yields law.child machine.next (itemChild call renderer item index span machine)) :
    law.Yields law.child machine.next (itemShown call renderer item index span machine) := by
  unfold itemShown
  cases ran : itemChild call renderer item index span machine with
  | mk result after =>
    have tried : Run.attempt (itemChild call renderer item index span) machine =
        (.ok result, after) := by
      unfold Run.attempt
      rw [ran]
    rw [ran] at rendered
    rw [Run.bind_of_ok tried]
    cases result with
    | ok child => exact ⟨rendered.next, rendered.machine, rendered.ok, fun _ is => (by cases is)⟩
    | error error =>
      have placeholder : law.child after.next (itemPlaceholder index) := by
        refine law.element (.block (namedByWords_text (by decide) (List.forall_mem_nil _)) _) ?_
          (children_text _)
        exact List.forall_mem_cons.mpr ⟨law.data _, List.forall_mem_nil _⟩
      exact ⟨rendered.next, rendered.machine.mono (Nat.le_refl _) rfl rfl,
        fun _ is => Except.ok.inj is ▸ placeholder, fun _ is => (by cases is)⟩

private theorem carries_itemChildren (sound : law.Sound machine) {renderer : Value}
    (callable : law.value machine.next renderer) {items : List Value}
    (held : law.Values machine.next items) (index : Nat) :
    law.Carries law.Children machine
      (itemChildren (callWithin source room) renderer span index items)
      (activityParts source room (callWithin source room) machine
        (.list renderer span index items)) := by
  cases items with
  | nil => exact carries_own (yields_succeed sound (List.forall_mem_nil _))
  | cons item rest =>
    intro given
    obtain ⟨⟨reached, kept⟩, others⟩ := List.forall_mem_cons.mp given
    obtain ⟨⟨second, behind⟩, _⟩ := List.forall_mem_cons.mp others
    obtain ⟨own, more⟩ := List.forall_mem_cons.mp held
    have first : law.At ⟨room, .item renderer item index span, machine⟩ := by
      refine ⟨reached, sound, ?_, fun _ _ is => (by cases is)⟩
      exact List.forall_mem_cons.mpr ⟨callable, List.forall_mem_cons.mpr
        ⟨own, List.forall_mem_nil _⟩⟩
    have shown := yields_itemShown (kept first)
    have next : law.At ⟨room, .list renderer span (index + 1) rest,
        (itemShown (callWithin source room) renderer item index span machine).2⟩ := by
      refine ⟨second, shown.machine, ?_, fun _ _ is => (by cases is)⟩
      exact List.forall_mem_cons.mpr
        ⟨law.value_mono shown.next callable, values_mono shown.next more⟩
    refine ⟨List.forall_mem_cons.mpr ⟨first, List.forall_mem_cons.mpr
      ⟨next, List.forall_mem_nil _⟩⟩, ?_⟩
    rw [itemChildren]
    refine yields_bind shown ?_
    intro child middle ran le sound inner
    have last := behind next
    rw [ran] at last
    refine yields_bind last ?_
    intro children after _ le sound others
    exact yields_succeed sound (List.forall_mem_cons.mpr ⟨law.child_mono le inner, others⟩)

end Builders

section Calls

variable {room : Nat} {machine : Machine} {arguments : List Value} {span : Span}

private theorem carries_callClosure (sound : law.Sound machine) {closure : Closure}
    (fits : law.Scoped machine.next (bindParameters closure.scope closure.parameters arguments)
      (.ofBody closure.body)) :
    law.Carries law.value machine (callClosure (callWithin source room) closure arguments)
      (bodyParts room machine closure arguments) := by
  obtain ⟨place, parameters, body, scope⟩ := closure
  cases body with
  | expression value => exact carries_point (fits.ready sound rfl) id
  | block statements =>
    refine carries_last (fits.ready sound rfl) id ?_
    intro flow after _ sound held
    cases flow with
    | next => exact yields_succeed sound law.null
    | result value => exact yields_succeed sound held

private theorem yields_addTo (sound : law.Sound machine) (collector : Nat)
    (held : law.Values machine.next arguments) :
    law.Yields law.value machine.next (addTo collector arguments span machine) := by
  unfold addTo
  refine yields_bind (yields_childOf sound (law.hereditary.getD (values_head held))) ?_
  intro made middle _ _ sound inner
  have added : law.Sound (Run.collect collector made.toList middle).2 := by
    unfold Run.collect
    split
    · refine ⟨List.forall_mem_map.mpr (fun entry member child inside => ?_), sound.root⟩
      split at inside
      · rcases List.mem_append.mp inside with before | new
        · exact sound.collected entry member child before
        · exact inner child new
      · exact sound.collected entry member child inside
    · exact sound
  have next : (Run.collect collector made.toList middle).2.next = middle.next := by
    unfold Run.collect
    split <;> rfl
  have collected : law.Yields (fun _ _ => True) middle.next
      (Run.collect collector made.toList middle) := by
    refine ⟨Nat.le_of_eq next.symm, added, fun _ _ => trivial, fun error is => ?_⟩
    unfold Run.collect at is
    split at is <;> cases is
  refine yields_bind collected ?_
  intro wasOpen after _ _ sound _
  cases wasOpen with
  | true => exact yields_succeed sound law.null
  | false => exact yields_fail span sound (fun _ is => by cases is)

private theorem carries_entered {request : Call}
    (here : law.At ⟨room, .entered request, machine⟩) :
    law.Carries law.value machine (enter source (callWithin source room) request)
      (activityParts source room (callWithin source room) machine (.entered request)) := by
  obtain ⟨name, callee, arguments, span⟩ := request
  obtain ⟨callable, held⟩ := List.forall_mem_cons.mp here.values
  have refused : ∀ fault, (∀ name, fault ≠ .notDefined name) →
      law.Carries law.value machine (Run.fail span fault) [] :=
    fun fault other => carries_own (yields_fail span here.machine other)
  cases callee with
  | builtin known => exact carries_runBuiltin here.machine callable held
  | function closure =>
    refine carries_callClosure here.machine ⟨?_, law.body here.reached callable⟩
    exact law.hereditary.bindParameters (law.captured callable) held
  | adder collector => exact carries_own (yields_addTo here.machine collector held)
  | _ => exact refused _ (fun _ is => by cases is)

private theorem carries_call {request : Call} (here : law.At ⟨room, .call request, machine⟩) :
    law.Carries law.value machine (callWithin source room request)
      (activityParts source room (callWithin source room) machine (.call request)) := by
  have refused : ∀ fault, (∀ name, fault ≠ .notDefined name) →
      law.Carries law.value machine (Run.fail request.span fault) [] :=
    fun fault other => carries_own (yields_fail request.span here.machine other)
  have tooMany := refused .tooManyCalls (fun _ is => by cases is)
  have notFunction := refused (.notFunction request.name) (fun _ is => by cases is)
  cases room with
  | zero =>
    unfold callWithin
    split
    · exact tooMany
    · exact notFunction
  | succ left =>
    show law.Carries law.value machine (callWithin source (left + 1) request) (ite _ _ _)
    unfold callWithin
    split
    · have ready : law.Ready ⟨left, .entered request, machine.entering request⟩ :=
        ⟨here.machine.mono (Nat.le_refl _) rfl rfl, here.values, fun _ _ is => (by cases is)⟩
      refine carries_point ready (fun entered => ?_)
      have ended : law.Yields law.value machine.next
          (enter source (callWithin source left) request (machine.entering request)) := entered
      exact ⟨ended.next, ended.machine.mono (Nat.le_refl _) rfl rfl, ended.ok, ended.error⟩
    · exact notFunction

private theorem children_collected {bound collector : Nat} {collectors : List (Nat × List Child)}
    (all : ∀ entry ∈ collectors, ∀ child ∈ entry.2, law.child bound child) :
    law.Children bound (Run.collected collector collectors) := by
  induction collectors with
  | nil => exact List.forall_mem_nil _
  | cons entry rest ih =>
    obtain ⟨first, behind⟩ := List.forall_mem_cons.mp all
    unfold Run.collected
    split
    · exact first
    · exact ih behind

private theorem carries_collection (sound : law.Sound machine) {builder : Option Value}
    (held : ∀ value, builder = some value → law.value machine.next value) :
    law.Carries law.Children machine (childrenOf (callWithin source room) builder span)
      (activityParts source room (callWithin source room) machine (.collection builder span)) := by
  have nothing : law.Carries law.Children machine (Run.succeed []) [] :=
    carries_own (yields_succeed sound (List.forall_mem_nil _))
  cases builder with
  | none => exact nothing
  | some builder =>
    by_cases callable : builder.isCallable = true
    · let part : Point :=
        ⟨room, .call ⟨traceName builder, builder, [.adder machine.next], span⟩, machine.collecting⟩
      have parts : activityParts source room (callWithin source room) machine
          (.collection (some builder) span) = [part] := if_pos callable
      have le := Nat.le_succ machine.next
      have ready : law.Ready part := by
        refine ready_call ⟨?_, ?_⟩ (law.value_mono le (held builder rfl)) ?_
        · refine List.forall_mem_cons.mpr ⟨List.forall_mem_nil _, ?_⟩
          have onwards : law.Sound { machine with next := machine.next + 1 } := sound.mono le rfl rfl
          exact onwards.collected
        · exact fun tree is => law.child_mono le (sound.root tree is)
        · exact List.forall_mem_cons.mpr
            ⟨law.adder (Nat.lt_succ_self _), List.forall_mem_nil _⟩
      rw [parts]
      refine carries_point ready (fun called => ?_)
      have ended : law.Yields law.value (machine.next + 1) (callWithin source room
        ⟨traceName builder, builder, [.adder machine.next], span⟩ machine.collecting) := called
      rw [childrenOf_eq (callWithin source room) callable span machine]
      generalize callWithin source room
        ⟨traceName builder, builder, [.adder machine.next], span⟩ machine.collecting = outcome at ended
      obtain ⟨result, after⟩ := outcome
      refine ⟨Nat.le_of_succ_le ended.next, ⟨?_, ended.machine.root⟩, ?_, ?_⟩
      · exact fun entry member => ended.machine.collected entry (List.mem_filter.mp member).1
      · intro children is
        cases result with
        | error error => cases is
        | ok value =>
          cases is
          exact children_collected ended.machine.collected
      · intro error is
        cases result with
        | error other =>
          cases is
          exact ended.error error rfl
        | ok value => cases is
    · have parts : activityParts source room (callWithin source room) machine
          (.collection (some builder) span) = [] := if_neg callable
      rw [parts]
      obtain empty | fails := childrenOf_of_not_callable (callWithin source room) callable span
      · rw [empty]
        exact nothing
      · rw [fails]
        exact carries_own (yields_fail span sound (fun _ is => by cases is))

end Calls

theorem at_parts {whole : Point} (here : law.At whole) :
    (∀ part ∈ whole.parts source, law.At part) ∧ law.Outcome whole := by
  induction whole using Point.parts_induction source with
  | step whole ih =>
    have given : ∀ part ∈ whole.parts source,
        law.reached part ∧ (law.At part → law.Outcome part) :=
      fun part member => ⟨law.parts here.reached part member, fun start => (ih part member start).2⟩
    obtain ⟨room, activity, machine⟩ := whole
    have sound := here.machine
    cases activity with
    | expression scope value => exact carries_evaluate sound (here.fits rfl) given
    | items scope values => exact carries_evaluateItems sound (here.fits rfl) given
    | entries scope values => exact carries_evaluateEntries sound (here.fits rfl) given
    | statement scope next => exact carries_executeStatement sound (here.fits rfl) given
    | block scope statements =>
      exact carries_executeBlock sound (here.fits rfl) here.reached given
    | call request => exact carries_call here given
    | entered request => exact carries_entered here given
    | collection builder span =>
      exact carries_collection sound (fun value is => here.values value (Option.mem_toList.mpr is)) given
    | content producer absent span =>
      exact carries_contentOf sound (fun value is => here.values value (Option.mem_toList.mpr is))
        absent given
    | list renderer span index items =>
      obtain ⟨callable, held⟩ := List.forall_mem_cons.mp here.values
      exact carries_itemChildren sound callable held index given
    | item renderer item index span =>
      obtain ⟨callable, others⟩ := List.forall_mem_cons.mp here.values
      exact carries_itemChild sound callable (others item List.mem_cons_self) index given

theorem at_points {start point : Point} (here : law.At start)
    (within : point ∈ start.points source) : law.At point := by
  have step : ∀ whole, law.At whole → ∀ part ∈ whole.parts source, law.At part :=
    fun _ start => (at_parts start).1
  exact Point.inherited step here within

section Programs

open Source (Statement)

variable {next : Nat} {vocabulary : Vocabulary} {state : Json} {host : Recording}
  {statements : List Statement}

private theorem sound_initial (next : Nat) (host : Recording) : law.Sound (Machine.initial next host) :=
  ⟨List.forall_mem_nil _, fun _ is => (by cases is)⟩

/-- A property of the functions of a vocabulary and of the state is one of all that a screen starts
with. -/
theorem forall_mem_scope {holds : Value → Prop}
    (builtin : ∀ known ∈ vocabulary.builders ++ Vocabulary.hostFunctions, holds (.builtin known))
    {state : Value} (held : holds state) : ∀ binding ∈ vocabulary.scope state, holds binding.2 := by
  have functions : ∀ (functions : List Builtin) (scope : Scope),
      (∀ known ∈ functions, holds (.builtin known)) → (∀ binding ∈ scope, holds binding.2) →
      ∀ binding ∈ functions.foldl
        (fun scope function => Scope.bind function.name (.builtin function) scope) scope,
        holds binding.2 := by
    intro functions
    induction functions with
    | nil => exact fun _ _ held => held
    | cons function rest ih =>
      intro scope builtin held
      obtain ⟨own, others⟩ := List.forall_mem_cons.mp builtin
      exact ih _ others (List.forall_mem_cons.mpr ⟨own, held⟩)
  exact List.forall_mem_cons.mpr ⟨held, functions _ [] builtin (List.forall_mem_nil _)⟩

/-- A law that allows the functions of the vocabulary and the state holds where a screen starts. -/
theorem at_screen_of_vocabulary
    (builtin : ∀ known ∈ vocabulary.builders ++ Vocabulary.hostFunctions,
      law.value (Value.ofJson next state).2 (.builtin known))
    (held : law.value (Value.ofJson next state).2 (Value.ofJson next state).1)
    (placed : law.placed (vocabulary.scope (Value.ofJson next state).1) (.block statements))
    (reached : law.reached (Point.screen next vocabulary state host statements)) :
    law.At (Point.screen next vocabulary state host statements) := by
  refine ⟨reached, sound_initial _ host, ?_, ?_⟩
  · exact List.forall_mem_map.mpr (forall_mem_scope builtin held)
  · intro scope piece is
    cases is
    exact placed

theorem at_screen (builtin : ∀ {bound} known, law.value bound (.builtin known))
    (held : law.value (Value.ofJson next state).2 (Value.ofJson next state).1)
    (placed : law.placed (vocabulary.scope (Value.ofJson next state).1) (.block statements))
    (reached : law.reached (Point.screen next vocabulary state host statements)) :
    law.At (Point.screen next vocabulary state host statements) :=
  at_screen_of_vocabulary (fun known _ => builtin known) held placed reached

theorem holds_of_screenFrom (here : law.At (Point.screen next vocabulary state host statements))
    (read : Source.program source = .ok statements) {root : Node}
    (made : (screenFrom next source vocabulary state host).1 = .ok root) :
    ∃ bound, law.child bound (.node root) := by
  have yields : law.Yields law.Flows (Value.ofJson next state).2
      (executeBlock (callWithin source callLimit) (vocabulary.scope (Value.ofJson next state).1)
        statements (Machine.initial (Value.ofJson next state).2 host)) := (at_parts here).2
  unfold screenFrom at made
  rw [read] at made
  dsimp only at made
  generalize executeBlock (callWithin source callLimit) (vocabulary.scope (Value.ofJson next state).1)
    statements (Machine.initial (Value.ofJson next state).2 host) = outcome at made yields
  obtain ⟨result, after⟩ := outcome
  cases result with
  | error error => cases made
  | ok flow =>
    cases found : after.root with
    | none =>
      rw [found] at made
      cases made
    | some tree =>
      rw [found] at made
      cases made
      exact ⟨after.next, yields.machine.root _ found⟩

theorem at_handler {closure : Closure} (held : law.value next (.function closure))
    (reached : law.reached (Point.handler closure next host)) :
    law.At (Point.handler closure next host) :=
  ⟨reached, sound_initial _ host,
    List.forall_mem_cons.mpr ⟨held, List.forall_mem_nil _⟩, fun _ _ is => (by cases is)⟩

end Programs

end Law

end ScreenStudio.Evaluation
