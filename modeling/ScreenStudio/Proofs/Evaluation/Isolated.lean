/- digest: A list renders each of its items as if it were the only one. -/

import ScreenStudio.Proofs.Evaluation.Bracketed
import ScreenStudio.Proofs.Evaluation.Lawful

/-!
A list calls its renderer with one item after the other. The machine that an item finds differs from the
one that the list was called in by the identities that were handed out since, by what the items before it
have given to the containers around the list, by the root, and by what the host has recorded: a program
reads none of these. So an item becomes, up to new identities, the child that a call of the renderer with
it alone makes, whatever the other items are and however they fail.
-/

set_option autoImplicit false
set_option relaxedAutoImplicit false

namespace ScreenStudio

/-- One recording and then another. -/
def Recording.append (first second : Recording) : Recording :=
  ⟨first.actions ++ second.actions, first.logs ++ second.logs⟩

/-- What has been recorded behind an earlier recording. -/
def Recording.since (before after : Recording) : Recording :=
  ⟨after.actions.drop before.actions.length, after.logs.drop before.logs.length⟩

theorem Recording.since_append (before gained : Recording) :
    before.since (before.append gained) = gained := by
  unfold Recording.since Recording.append
  rw [List.drop_left, List.drop_left]

theorem Recording.append_empty (recording : Recording) : recording.append .empty = recording := by
  unfold Recording.append Recording.empty
  rw [List.append_nil, List.append_nil]

theorem Recording.append_log (first second : Recording) (line : String) :
    (first.append second).log line = first.append (second.log line) := by
  unfold Recording.append Recording.log
  rw [List.append_assoc]

theorem Recording.append_dispatch (first second : Recording) (action : String) :
    (first.append second).dispatch action = first.append (second.dispatch action) := by
  unfold Recording.append Recording.dispatch
  rw [List.append_assoc]

namespace Evaluation

open Source (Span)

variable {source : String}

/-- The child that an item is rendered to, or why it is not: the call fails, or gives null, or what is no
child. -/
def renderedChild : Except RuntimeError Value → Except Fault Child
  | .error error => .error error.fault
  | .ok value =>
    match value, madeChild? value with
    | _, some child => .ok child
    | .null, none => .error .nullItem
    | other, none => .error (.notChild other.kind)

/-- What a call of the renderer with one item makes of it, and what the host records meanwhile. -/
structure Rendering where
  child : Child
  recorded : Recording

/-- The call of a renderer for the item at an index. -/
def itemCall (renderer item : Value) (index : Nat) (span : Span) : Call :=
  ⟨traceName renderer, renderer, [item, .number (Number.ofInt index)], span⟩

/-- The rendering of an item by a call of the renderer with nothing but it: the child that it is rendered
to, or a placeholder and one line about the failure. -/
def renderedAlone (call : Caller) (renderer item : Value) (index : Nat) (span : Span)
    (machine : Machine) : Rendering :=
  let (result, after) := call (itemCall renderer item index span) machine
  let recorded := machine.host.since after.host
  match renderedChild result with
  | .ok child => ⟨child, recorded⟩
  | .error fault => ⟨itemPlaceholder index, recorded.log (itemFailureLine fault)⟩

/-- The child is the same up to identities that have been handed out since `bound`. -/
def Child.SameBelow (bound : Nat) (alone shown : Child) : Prop :=
  ∃ map : Renaming, map.start = bound ∧ Agree bound map.relabel id ∧ shown = alone.rename map.relabel

/-- The children are the same child up to identities that have been handed out since `bound`. -/
def Child.SameUpTo (bound : Nat) (one two : Child) : Prop :=
  ∃ alone, Child.SameBelow bound alone one ∧ Child.SameBelow bound alone two

/-- The children and the recording of a list are those of its items alone, one by one and in order. -/
structure Isolates (call : Caller) (renderer : Value) (span : Span) (machine : Machine)
    (items : List Value) (children : List Child) (recorded : Recording) : Prop where
  length : children.length = items.length
  child : ∀ index item, items[index]? = some item → ∃ shown, children[index]? = some shown ∧
    Child.SameBelow machine.next (renderedAlone call renderer item index span machine).child shown
  recorded : recorded = items.zipIdx.foldl (fun before entry =>
    before.append (renderedAlone call renderer entry.1 entry.2 span machine).recorded) machine.host
  /-- What a call records stands behind what was recorded before. -/
  extended : ∀ index item, items[index]? = some item →
    (call (itemCall renderer item index span) machine).2.host = machine.host.append
      (machine.host.since (call (itemCall renderer item index span) machine).2.host)

section Item

/-- The child that a rendering is, where it is one. -/
private def presentChild (span : Span) : Option Child → Run Child
  | some child => pure child
  | none => Run.fail span .nullItem

/-- An item is shown as a call of the renderer makes it, with a line for the host where it is none. -/
theorem itemShown_eq_match (call : Caller) (renderer item : Value) (index : Nat) (span : Span)
    (machine : Machine) :
    itemShown call renderer item index span machine =
      (fun outcome : Except RuntimeError Value × Machine =>
        match renderedChild outcome.1 with
        | .ok child => (.ok child, outcome.2)
        | .error fault => (.ok (itemPlaceholder index),
            { outcome.2 with host := outcome.2.host.log (itemFailureLine fault) }))
        (call (itemCall renderer item index span) machine) := by
  have attempted : ∀ result after,
      itemChild call renderer item index span machine = (result, after) →
      Run.attempt (itemChild call renderer item index span) machine = (.ok result, after) := by
    intro result after ran
    unfold Run.attempt
    rw [ran]
  have made : ∀ child after, itemChild call renderer item index span machine = (.ok child, after) →
      itemShown call renderer item index span machine = (.ok child, after) :=
    fun child after ran => Run.bind_of_ok (attempted _ _ ran)
  have failed : ∀ error after, itemChild call renderer item index span machine = (.error error, after) →
      itemShown call renderer item index span machine = (.ok (itemPlaceholder index),
        { after with host := after.host.log (itemFailureLine error.fault) }) :=
    fun error after ran => Run.bind_of_ok (attempted _ _ ran)
  cases outcome : call (itemCall renderer item index span) machine with
  | mk result after =>
    have applied : call.apply renderer [item, .number (Number.ofInt index)] span machine =
        (result, after) := outcome
    cases result with
    | error error => exact failed _ _ (Run.bind_of_error applied)
    | ok value =>
      have bound : itemChild call renderer item index span machine =
          (childOf value span >>= presentChild span) after := Run.bind_of_ok applied
      cases value with
      | null => exact (failed _ _ (bound.trans (Run.bind_of_ok rfl))).trans rfl
      | bool content => exact made _ _ (bound.trans (Run.bind_of_ok rfl))
      | number content => exact made _ _ (bound.trans (Run.bind_of_ok rfl))
      | text content => exact made _ _ (bound.trans (Run.bind_of_ok rfl))
      | node identity tree => exact made _ _ (bound.trans (Run.bind_of_ok rfl))
      | _ => exact (failed _ _ (bound.trans (Run.bind_of_error rfl))).trans rfl

private theorem renderedChild_rename (relabel : Nat → Nat) (value : Value) :
    renderedChild (.ok (value.rename relabel)) =
      (renderedChild (.ok value)).map (Child.rename relabel) := by
  cases value <;> rfl

/-- What a program does not read may differ: what the containers around it have collected, the root, and
what the host had recorded before. -/
def Unread.since (map : Renaming) (one two : Recording) : Unread map where
  content bound collector first second := map.start ≤ collector →
    Child.ListBelow bound first ∧ second = Child.renameList map.relabel first
  root _ _ _ := True
  host first second := ∃ gained, first = one.append gained ∧ second = two.append gained
  content_mono le related own := ⟨(related own).1.mono le, (related own).2⟩
  content_new _ _ := ⟨trivial, rfl⟩
  content_own own related := related own
  content_append := by
    intro bound collector first second children related more own
    obtain ⟨below, rfl⟩ := related own
    exact ⟨Child.listBelow_append below more, (Child.renameList_append _ _ _).symm⟩
  root_mono _ _ := trivial
  root_set _ := trivial
  host_log := by
    rintro _ _ line ⟨gained, rfl, rfl⟩
    exact ⟨gained.log line, one.append_log gained line, two.append_log gained line⟩
  host_dispatch := by
    rintro _ _ action ⟨gained, rfl, rfl⟩
    exact ⟨gained.dispatch action, one.append_dispatch gained action, two.append_dispatch gained action⟩

/-- The second machine is the first one some evaluations later. -/
structure Machine.Later (before after : Machine) : Prop where
  frames : after.frames = before.frames
  openIds : after.openIds = before.openIds
  next : before.next ≤ after.next

private theorem alike_later {before after : Machine} (fresh : before.Fresh)
    (later : before.Later after) (behind : before.next + 0 ≤ after.next) :
    before.Alike (.since (.splice 0 before.next after.next behind) before.host after.host) after := by
  let map := Renaming.splice 0 before.next after.next behind
  have collectors : ∀ one two : List (Nat × List Child),
      (∀ collector ∈ one.map Prod.fst, collector < before.next) →
      two.map Prod.fst = one.map Prod.fst →
      CollectorsAlike (.since map before.host after.host) before.next one two := by
    intro one
    induction one with
    | nil =>
      intro two _ same
      cases List.map_eq_nil_iff.mp same
      trivial
    | cons entry outer ih =>
      intro two old same
      obtain ⟨own, others⟩ := List.forall_mem_cons.mp old
      cases two with
      | nil => cases same
      | cons entry' rest =>
        obtain ⟨head, tail⟩ := List.cons.inj same
        have kept : map.relabel entry.1 = entry.1 := if_pos own
        refine ⟨head.trans kept.symm, fun reached => ?_, ih rest others tail⟩
        exact absurd own (Nat.not_lt.mpr reached)
  refine ⟨Nat.le_refl _, (Renaming.relabel_splice_start behind).symm, later.frames, ?_, trivial, ?_⟩
  · exact collectors _ _ fresh later.openIds
  · exact ⟨.empty, before.host.append_empty.symm, after.host.append_empty.symm⟩

/-- The second outcome is the first one some evaluations later: the same failure or the same value up to
identities from `bound` on, and behind what either host had recorded the same is recorded. -/
private structure OutcomesLater (bound : Nat) (map : Renaming) (before after : Recording)
    (one two : Except RuntimeError Value × Machine) : Prop where
  result : (Likeness.value map).Result one.2.next one.1 two.1
  recorded : ∃ gained, one.2.host = before.append gained ∧ two.2.host = after.append gained

private theorem itemCall_later (source : String) (room : Nat) {before after : Machine}
    (fresh : before.Fresh) (later : before.Later after) {renderer item : Value}
    (callable : renderer.Below before.next) (held : item.Below before.next) (index : Nat) (span : Span) :
    ∃ map : Renaming, map.start = before.next ∧ Agree before.next map.relabel id ∧
      OutcomesLater before.next map before.host after.host
        (callWithin source room (itemCall renderer item index span) before)
        (callWithin source room (itemCall renderer item index span) after) := by
  have behind : before.next + 0 ≤ after.next := later.next
  let map := Renaming.splice 0 before.next after.next behind
  have fixed : Agree before.next map.relabel id := fun identity less => if_pos less
  have request : (itemCall renderer item index span).rename map.relabel =
      itemCall renderer item index span := by
    unfold itemCall Call.rename
    rw [Value.rename_of_fixed fixed callable, Value.renameItems, Value.rename_of_fixed fixed held]
    rfl
  have calls : (callWithin source room).Alike (.since map before.host after.host) :=
    alike_callWithin source room
  have outcome := calls before.next (itemCall renderer item index span)
    ⟨callable, held, trivial, trivial⟩ before after (Nat.le_refl _) (alike_later fresh later behind)
  rw [request] at outcome
  exact ⟨map, rfl, fixed, outcome.result, outcome.machine.host⟩

private theorem shown_later (source : String) (room : Nat) {before after : Machine}
    (fresh : before.Fresh) (later : before.Later after) {renderer item : Value}
    (callable : renderer.Below before.next) (held : item.Below before.next) (index : Nat) (span : Span) :
    ∃ shown last,
      itemShown (callWithin source room) renderer item index span after = (.ok shown, last) ∧
      Child.SameBelow before.next
        (renderedAlone (callWithin source room) renderer item index span before).child shown ∧
      last.host = after.host.append
        (renderedAlone (callWithin source room) renderer item index span before).recorded := by
  obtain ⟨map, start, fixed, result, gained, recorded, also⟩ :=
    itemCall_later source room fresh later callable held index span
  rw [itemShown_eq_match]
  unfold renderedAlone
  generalize callWithin source room (itemCall renderer item index span) before = one at result recorded
  generalize callWithin source room (itemCall renderer item index span) after = two at result also
  obtain ⟨first, one⟩ := one
  obtain ⟨second, two⟩ := two
  dsimp only at recorded also result ⊢
  rw [recorded, Recording.since_append]
  have placeholder : ∀ fault, Child.SameBelow before.next (itemPlaceholder index)
      (itemPlaceholder index) ∧ two.host.log (itemFailureLine fault) =
        after.host.append (gained.log (itemFailureLine fault)) := by
    intro fault
    refine ⟨⟨map, start, fixed, rfl⟩, ?_⟩
    rw [also, Recording.append_log]
  cases result with
  | error error =>
    exact ⟨_, _, rfl, placeholder error.fault⟩
  | @ok value other alike =>
    obtain ⟨_, rfl⟩ := alike
    rw [renderedChild_rename]
    cases renderedChild (.ok value) with
    | error fault => exact ⟨_, _, rfl, placeholder fault⟩
    | ok child => exact ⟨_, _, rfl, ⟨map, start, fixed, rfl⟩, also⟩

private theorem host_itemCall {room : Nat} {machine : Machine} (fresh : machine.Fresh)
    {renderer item : Value} (callable : renderer.Below machine.next) (held : item.Below machine.next)
    (index : Nat) (span : Span) :
    (callWithin source room (itemCall renderer item index span) machine).2.host =
      machine.host.append (machine.host.since
        (callWithin source room (itemCall renderer item index span) machine).2.host) := by
  have here : machine.Later machine := ⟨rfl, rfl, Nat.le_refl _⟩
  obtain ⟨_, _, _, _, gained, recorded, _⟩ :=
    itemCall_later source room fresh here callable held index span
  rw [recorded, Recording.since_append]

end Item

section List

private theorem later_itemShown (source : String) (room : Nat) {before after : Machine}
    (fresh : before.Fresh) (later : before.Later after) (renderer item : Value) (index : Nat) (span : Span) :
    before.Later (itemShown (callWithin source room) renderer item index span after).2 := by
  let point : Point := ⟨room, .item renderer item index span, after⟩
  have still : after.Fresh := by
    intro collector member
    rw [later.openIds] at member
    exact Nat.lt_of_lt_of_le (fresh collector member) later.next
  obtain ⟨shown, last, ran, rests⟩ :=
    itemShown_eq (callWithin source room) renderer item index span after
  have ends : point.after source =
      (itemChild (callWithin source room) renderer item index span after).2 := ending_snd _
  rw [← ends] at rests
  rw [ran]
  have frames := Point.frames_after source point
  have openIds : (point.after source).openIds = point.machine.openIds := Point.openIds_after still
  have gains := Point.gains source point still
  exact ⟨rests.frames.trans (frames.trans later.frames),
    rests.openIds_eq.trans (openIds.trans later.openIds),
    Nat.le_trans later.next (Nat.le_trans gains.next rests.next)⟩

private theorem itemChildren_later (source : String) (room : Nat) {before : Machine} (fresh : before.Fresh)
    {renderer : Value} (callable : renderer.Below before.next) (span : Span) (items : List Value) :
    ∀ (start : Nat) (after : Machine), before.Later after → Value.ItemsBelow before.next items →
      ∃ children last,
        itemChildren (callWithin source room) renderer span start items after = (.ok children, last) ∧
        children.length = items.length ∧
        (∀ index item, items[index]? = some item → ∃ shown, children[index]? = some shown ∧
          Child.SameBelow before.next
            (renderedAlone (callWithin source room) renderer item (start + index) span before).child
            shown) ∧
        last.host = (items.zipIdx start).foldl (fun recorded entry => recorded.append
          (renderedAlone (callWithin source room) renderer entry.1 entry.2 span before).recorded)
          after.host := by
  induction items with
  | nil =>
    intro start after later _
    refine ⟨[], after, rfl, rfl, fun index item found => ?_, rfl⟩
    rw [List.getElem?_nil] at found
    cases found
  | cons item rest ih =>
    intro start after later below
    obtain ⟨shown, middle, ran, same, recorded⟩ :=
      shown_later source room fresh later callable below.1 start span
    have onwards := later_itemShown source room fresh later renderer item start
      span
    rw [ran] at onwards
    obtain ⟨children, last, others, length, each, behind⟩ := ih (start + 1) middle onwards below.2
    refine ⟨shown :: children, last, ?_, congrArg Nat.succ length, ?_, ?_⟩
    · rw [itemChildren, Run.bind_of_ok ran, Run.bind_of_ok others]
      rfl
    · intro index other found
      cases index with
      | zero =>
        cases found
        exact ⟨shown, rfl, same⟩
      | succ index =>
        obtain ⟨child, found, alike⟩ := each index other found
        refine ⟨child, found, ?_⟩
        rwa [Nat.add_assoc, Nat.add_comm 1 index] at alike
    · rw [behind, recorded, List.zipIdx_cons, List.foldl_cons]

theorem isolates_itemChildren (source : String) (room : Nat) {machine : Machine} (fresh : machine.Fresh)
    {renderer : Value} (callable : renderer.Below machine.next) (span : Span) {items : List Value}
    (below : Value.ItemsBelow machine.next items) :
    ∃ children after,
      itemChildren (callWithin source room) renderer span 0 items machine = (.ok children, after) ∧
      Isolates (callWithin source room) renderer span machine items children after.host := by
  have here : machine.Later machine := ⟨rfl, rfl, Nat.le_refl _⟩
  obtain ⟨children, after, ran, length, each, recorded⟩ :=
    itemChildren_later source room fresh callable span items 0 machine here below
  refine ⟨children, after, ran, length, fun index item found => ?_, recorded, ?_⟩
  · obtain ⟨shown, is, same⟩ := each index item found
    rw [Nat.zero_add] at same
    exact ⟨shown, is, same⟩
  · intro index item found
    have held := Value.itemsBelow_iff.mp below item (List.mem_of_getElem? found)
    exact host_itemCall fresh callable held index span

end List

section Points

/-- Identities are handed out upwards, and all that a program has were handed out before. -/
def Law.below (source : String) : Law source where
  value := Value.Below
  child := Child.Below
  property := Property.Below
  placed _ _ := True
  reached _ := True
  failure _ := True
  value_mono le below := Value.Below.mono le below
  child_mono le below := Child.Below.mono le below
  property_mono le below := Property.Below.mono le below
  null := trivial
  bool _ := trivial
  number _ := trivial
  text _ := trivial
  adder less := less
  array less items := ⟨less, Value.itemsBelow_iff.mpr items⟩
  item below := Value.itemsBelow_iff.mp below.2
  object less entries := ⟨less, Value.entriesBelow_iff.mpr entries⟩
  entry below := Value.entriesBelow_iff.mp below.2
  arrow _ bound := Value.entriesBelow_iff.mpr bound
  captured := by
    rintro bound ⟨span, parameters, body, scope⟩ below
    exact Value.entriesBelow_iff.mp below
  node less tree := ⟨less, tree⟩
  tree below := below.2
  element _ properties children := ⟨Property.listBelow_iff.mpr properties, Child.listBelow_iff.mpr children⟩
  childText _ := trivial
  data _ := trivial
  action _ := trivial
  callback closure less := ⟨closure, less⟩
  parts _ _ _ := trivial
  inside _ _ _ := trivial
  behind _ _ _ := trivial
  body _ _ := trivial
  raised _ _ _ _ := trivial
  unbound _ _ _ := trivial

/-- The renderer among the arguments of a list. -/
def listRenderer (arguments : List Value) : Value := arguments[1]?.getD .null

/-- A call of a list gives a node, each of whose children is rendered as if its item were the only one. -/
def RendersList (source : String) (call : Caller) (request : Call) (machine : Machine)
    (items : List Value) (children : List Child) : Prop :=
  ∃ identity after,
    enter source call request machine =
      (.ok (.node identity (.mk "div"
        [style [("display", "flex"), ("flexDirection", "column"), ("gap", "6px")]] children)), after) ∧
    Isolates call (listRenderer request.arguments) request.span machine items children after.host

/-- A list whose arguments pass their checks at the point gives a node with a child for every item. Any
other list that has an item in the same place shows the same there. -/
def Point.Isolated (source : String) (point : Point) : Prop :=
  ∀ name known arguments span items,
    point.activity = .entered ⟨name, .builtin known, arguments, span⟩ → known.behaviour = .lazyColumn →
    itemsOf arguments.head? span point.machine = (.ok items, point.machine) →
    (listRenderer arguments).isCallable = true →
    ∃ children,
      RendersList source (point.caller source) ⟨name, .builtin known, arguments, span⟩ point.machine
        items children ∧
      ∀ identity others, (Value.array identity others).Below point.machine.next →
        ∃ childrenToo,
          RendersList source (point.caller source)
            ⟨name, .builtin known, .array identity others :: arguments.tail, span⟩ point.machine
            others childrenToo ∧
          ∀ (index : Nat) (item : Value), items[index]? = some item → others[index]? = some item →
            ∃ one two : Child, children[index]? = some one ∧ childrenToo[index]? = some two ∧
              Child.SameUpTo point.machine.next one two

private theorem rendersList (source : String) (room : Nat) {machine : Machine}
    (fresh : machine.Fresh) {name : String} {known : Builtin}
    (behaviour : known.behaviour = .lazyColumn) {arguments items : List Value} {span : Span}
    (below : Value.ItemsBelow machine.next arguments)
    (found : itemsOf arguments.head? span machine = (.ok items, machine))
    (callable : (listRenderer arguments).isCallable = true) :
    ∃ children, RendersList source (callWithin source room) ⟨name, .builtin known, arguments, span⟩
      machine items children := by
  have renderer : (listRenderer arguments).Below machine.next := by
    unfold listRenderer
    cases second : arguments[1]? with
    | none => trivial
    | some value => exact Value.itemsBelow_iff.mp below value (List.mem_of_getElem? second)
  have held : Value.ItemsBelow machine.next items := by
    cases first : arguments.head? with
    | none =>
      rw [first] at found
      cases found
      trivial
    | some value =>
      have own := Value.itemsBelow_iff.mp below value (List.mem_of_head? first)
      rw [first] at found
      cases value with
      | null =>
        cases found
        trivial
      | array identity list =>
        cases found
        exact own.2
      | _ => cases found
  obtain ⟨children, after, ran, isolates⟩ :=
    isolates_itemChildren source room fresh renderer span held
  refine ⟨children, after.next, { after with next := after.next + 1 }, ?_, isolates⟩
  show runBuiltin source (callWithin source room) known.behaviour arguments span machine = _
  rw [behaviour]
  show (itemsOf arguments.head? span >>= fun items =>
    if (listRenderer arguments).isCallable = true then
      itemChildren (callWithin source room) (listRenderer arguments) span 0 items >>= fun children =>
        newNode "div" [style [("display", "flex"), ("flexDirection", "column"), ("gap", "6px")]] children
    else Run.fail span .itemRendererExpected) machine = _
  rw [Run.bind_of_ok found, if_pos callable, Run.bind_of_ok ran]
  rfl

private theorem isolated_of_at {point : Point} (fresh : point.machine.Fresh)
    (below : (Law.below source).At point) : point.Isolated source := by
  intro name known arguments span items entered behaviour found callable
  obtain ⟨room, activity, machine⟩ := point
  cases entered
  have given : Value.ItemsBelow machine.next arguments :=
    Value.itemsBelow_iff.mpr fun value member => below.values value (List.mem_cons_of_mem _ member)
  obtain ⟨children, renders⟩ :=
    rendersList source room fresh behaviour given found callable
  refine ⟨children, renders, fun identity others held => ?_⟩
  have second : listRenderer (.array identity others :: arguments.tail) = listRenderer arguments := by
    cases arguments <;> rfl
  have replaced : Value.ItemsBelow machine.next (.array identity others :: arguments.tail) := by
    refine ⟨held, Value.itemsBelow_iff.mpr fun value member => ?_⟩
    exact Value.itemsBelow_iff.mp given value (List.mem_of_mem_tail member)
  rw [← second] at callable
  obtain ⟨childrenToo, rendersToo⟩ :=
    rendersList source room fresh behaviour replaced rfl callable
  refine ⟨childrenToo, rendersToo, fun index item one two => ?_⟩
  obtain ⟨_, _, _, isolates⟩ := renders
  obtain ⟨_, _, _, isolatesToo⟩ := rendersToo
  obtain ⟨shown, is, same⟩ := isolates.child index item one
  obtain ⟨shownToo, isToo, sameToo⟩ := isolatesToo.child index item two
  dsimp only at sameToo
  rw [second] at sameToo
  exact ⟨shown, shownToo, is, isToo, _, same, sameToo⟩

/-- In screens and in their handlers, whenever they are invoked, a list that has passed the checks of its
arguments never fails. It has a child for every item, which is what a call of the renderer with that item
alone makes, or a placeholder where that call fails or makes no child; and the host records what these
calls record, with one line for every placeholder, in order. -/
theorem list_isolates_items (source : String) (next : Nat) (host : Recording) (vocabulary : Vocabulary)
    (state : Json) :
    (∀ statements, ∀ point ∈ (Point.screen next vocabulary state host statements).points source,
      point.Isolated source) ∧
    (∀ root, (screenFrom next source vocabulary state host).1 = .ok root →
      ∀ entry ∈ root.handlers, ∀ closure origin fresh, entry.2 = .callback closure origin fresh →
      ∀ later recording, fresh ≤ later →
      ∀ point ∈ (Point.handler closure later recording).points origin, point.Isolated origin) := by
  have start : ∀ next host, (Machine.initial next host).Fresh := fun _ _ _ member => by cases member
  constructor
  · intro statements point within
    have here : (Law.below source).At (Point.screen next vocabulary state host statements) :=
      Law.at_screen (fun _ => trivial) (Value.ofJson_below state next).2 trivial trivial
    exact isolated_of_at (Point.fresh_of_mem_points (start _ _) within) (Law.at_points here within)
  · intro root made entry member closure origin fresh is later recording onwards point within
    obtain ⟨bound, below⟩ := bounded_screenFrom made
    have held := Node.below_handlers below entry member
    rw [is] at held
    have here : (Law.below origin).At (Point.handler closure later recording) :=
      Law.at_handler (Closure.Below.mono onwards held.1) trivial
    exact isolated_of_at (Point.fresh_of_mem_points (start _ _) within) (Law.at_points here within)

end Points

end Evaluation

end ScreenStudio
