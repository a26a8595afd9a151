/- digest: Builders and calls take what is renamed to what is renamed. -/

import ScreenStudio.Proofs.Evaluation.Renamed

set_option autoImplicit false
set_option relaxedAutoImplicit false

namespace ScreenStudio.Evaluation

open Source (Span)
open Run (alike_bind alike_fail alike_succeed)

variable {map : Renaming} {unread : Unread map} {bound : Nat}

section Builders

variable {call : Caller} {arguments : List Value} {span : Span}

private theorem traceName_rename (relabel : Nat → Nat) (value : Value) :
    traceName (value.rename relabel) = traceName value := by
  cases value <;> rfl

private theorem alike_apply (calls : call.Alike unread) {callee : Value} (callable : callee.Below bound)
    (arguments : List Value) (held : Value.ItemsBelow bound arguments) :
    Run.Alike unread bound (.value map) (call.apply callee arguments span)
      (call.apply (callee.rename map.relabel) (Value.renameItems map.relabel arguments) span) := by
  unfold Caller.apply
  rw [traceName_rename]
  exact calls bound ⟨traceName callee, callee, arguments, span⟩ ⟨callable, held⟩

private theorem head_renameItems (relabel : Nat → Nat) (arguments : List Value) :
    (Value.renameItems relabel arguments).head? = arguments.head?.map (Value.rename relabel) := by
  cases arguments <;> rfl

private theorem second_renameItems (relabel : Nat → Nat) (arguments : List Value) :
    (Value.renameItems relabel arguments)[1]? = arguments[1]?.map (Value.rename relabel) := by
  rw [Value.renameItems_eq_map, List.getElem?_map]

private theorem below_head (held : Value.ItemsBelow bound arguments) :
    ∀ value, arguments.head? = some value → value.Below bound :=
  fun value is => Value.itemsBelow_iff.mp held value (List.mem_of_head? is)

private theorem below_second (held : Value.ItemsBelow bound arguments) :
    ∀ value, arguments[1]? = some value → value.Below bound :=
  fun value is => Value.itemsBelow_iff.mp held value (List.mem_of_getElem? is)

private theorem below_getD {found : Option Value}
    (held : ∀ value, found = some value → value.Below bound) :
    (found.getD .null).Below bound := by
  cases found with
  | none => trivial
  | some value => exact held value rfl

private theorem getD_rename (relabel : Nat → Nat) (found : Option Value) :
    (found.map (Value.rename relabel)).getD .null = (found.getD .null).rename relabel := by
  cases found <;> rfl

private theorem alike_childOf {value : Value} (below : value.Below bound) :
    Run.Alike unread bound (.made map) (childOf value span)
      (childOf (value.rename map.relabel) span) := by
  have nothing : (Likeness.made map).holds bound none none := ⟨fun _ is => (nomatch is), rfl⟩
  have text : ∀ content, (Likeness.made map).holds bound (some (.text content))
      (some (.text content)) :=
    fun content => ⟨fun _ is => Option.some.inj is ▸ trivial, rfl⟩
  cases value with
  | null => exact alike_succeed nothing
  | node identity tree => exact alike_succeed ⟨fun _ is => Option.some.inj is ▸ below.2, rfl⟩
  | text content => exact alike_succeed (text content)
  | number value => exact alike_succeed (text _)
  | bool value => exact alike_succeed (text _)
  | _ => exact alike_fail _ _

private theorem alike_addTo {collector : Nat} (held : Value.ItemsBelow bound arguments) :
    Run.Alike unread bound (.value map) (addTo collector arguments span)
      (addTo (map.relabel collector) (Value.renameItems map.relabel arguments) span) := by
  unfold addTo
  rw [head_renameItems, getD_rename]
  refine alike_bind (alike_childOf (below_getD (below_head held))) ?_
  rintro later made _ _ ⟨below, rfl⟩
  have children : Child.ListBelow later made.toList := by
    cases made with
    | none => trivial
    | some child => exact ⟨below child rfl, trivial⟩
  rw [← Child.renameList_toList]
  refine alike_bind (Run.alike_collect children) ?_
  rintro high _ wasOpen _ rfl
  cases wasOpen with
  | true => exact alike_value trivial
  | false => exact alike_fail _ _

private theorem alike_childrenOf (calls : call.Alike unread) {builder : Option Value}
    (held : ∀ value, builder = some value → value.Below bound) :
    Run.Alike unread bound (.children map) (childrenOf call builder span)
      (childrenOf call (builder.map (Value.rename map.relabel)) span) := by
  have nothing : Run.Alike unread bound (.children map) (Run.succeed []) (Run.succeed []) :=
    alike_succeed ⟨trivial, rfl⟩
  cases builder with
  | none => exact nothing
  | some builder =>
    have below := held builder rfl
    have collecting : Run.Alike unread bound (.children map)
        (Run.identity >>= fun collector =>
          Run.withCollector collector (call.apply builder [.adder collector] span) >>=
            fun collected => pure collected.2)
        (Run.identity >>= fun collector =>
          Run.withCollector collector
            (call.apply (builder.rename map.relabel) [.adder collector] span) >>=
            fun collected => pure collected.2) := by
      refine alike_bind Run.alike_identity ?_
      rintro later collector _ le ⟨⟨own, less⟩, rfl⟩
      refine alike_bind (Run.alike_withCollector own
        (alike_apply calls (below.mono le) [.adder collector] ⟨less, trivial⟩)) ?_
      rintro high ⟨_, children⟩ ⟨_, _⟩ _ ⟨_, below, rfl⟩
      exact alike_succeed ⟨below, rfl⟩
    cases builder with
    | null => exact nothing
    | function closure => exact collecting
    | builtin known => exact collecting
    | adder collector => exact collecting
    | _ => exact alike_fail _ _

private theorem alike_newNode (tag : String) {properties : List (String × Property)}
    {children : List Child} (own : Property.ListBelow (bound + 1) properties)
    (inner : Child.ListBelow (bound + 1) children) :
    Run.Alike unread bound (.value map) (newNode tag properties children)
      (newNode tag (Property.renameList map.relabel properties)
        (Child.renameList map.relabel children)) := by
  intro one two reached machines
  have counted : Run.Alike unread bound (.identity map) Run.identity Run.identity := Run.alike_identity
  obtain ⟨le, after, _⟩ := counted one two reached machines
  refine ⟨le, after, ?_⟩
  show (Likeness.value map).Result (one.next + 1) (.ok (.node one.next (.mk tag properties children)))
    (.ok (.node two.next _))
  rw [machines.next]
  have high : bound + 1 ≤ one.next + 1 := Nat.succ_le_succ reached
  exact .ok ⟨⟨Nat.lt_succ_self _, own.mono high, inner.mono high⟩, rfl⟩

private theorem alike_contentOf (calls : call.Alike unread) {content : Option Value}
    (held : ∀ value, content = some value → value.Below bound) (absent : String) :
    Run.Alike unread bound (.equal String) (contentOf call content absent span)
      (contentOf call (content.map (Value.rename map.relabel)) absent span) := by
  cases content with
  | none => exact alike_succeed rfl
  | some content =>
    show Run.Alike _ _ _ (contentOf call (some content) absent span)
      (contentOf call (some (content.rename map.relabel)) absent span)
    unfold contentOf
    dsimp only
    rw [Value.isCallable_rename, Value.isTruthy_rename, Value.display_rename]
    split
    · refine alike_bind (alike_apply calls (held content rfl) [] trivial) ?_
      rintro later produced _ _ ⟨_, rfl⟩
      have shown := Value.display_rename map.relabel produced
      cases produced with
      | null => exact alike_succeed rfl
      | _ => exact alike_succeed shown
    · split
      · exact alike_succeed rfl
      · exact alike_succeed rfl

private theorem alike_text (calls : call.Alike unread) (held : Value.ItemsBelow bound arguments) :
    Run.Alike unread bound (.value map) (text call arguments span)
      (text call (Value.renameItems map.relabel arguments) span) := by
  unfold text
  rw [head_renameItems]
  refine alike_bind (alike_contentOf calls (below_head held) "") ?_
  rintro later _ content _ rfl
  exact alike_newNode "div" ⟨trivial, trivial⟩ ⟨trivial, trivial⟩

private theorem alike_handlerOf (source : String) {action : Option Value}
    (held : ∀ value, action = some value → value.Below bound) :
    Run.Alike unread bound (.listener map) (handlerOf source action span)
      (handlerOf source (action.map (Value.rename map.relabel)) span) := by
  have nothing : (Likeness.listener map).holds bound none none := ⟨fun _ is => (nomatch is), rfl⟩
  cases action with
  | none => exact alike_succeed nothing
  | some action =>
    have below := held action rfl
    have acted : Run.Alike unread bound (.listener map)
        (Run.succeed (some (Handler.action action.display)))
        (Run.succeed (some (Handler.action (action.rename map.relabel).display))) := by
      rw [Value.display_rename]
      exact alike_succeed ⟨fun _ is => Option.some.inj is ▸ trivial, rfl⟩
    cases action with
    | null => exact alike_succeed nothing
    | function closure =>
      intro one two reached machines
      refine ⟨Nat.le_refl _, machines, ?_⟩
      show (Likeness.listener map).Result one.next (.ok (some (.callback closure source one.next)))
        (.ok (some (.callback (closure.rename map.relabel) source two.next)))
      rw [machines.next]
      have kept : closure.Below one.next := Closure.Below.mono reached below
      exact .ok ⟨fun _ is => Option.some.inj is ▸ ⟨kept, Nat.lt_succ_self _⟩, rfl⟩
    | builtin known => exact alike_fail _ _
    | adder collector => exact alike_fail _ _
    | _ => exact acted

private theorem alike_button (source : String) (calls : call.Alike unread)
    (held : Value.ItemsBelow bound arguments) :
    Run.Alike unread bound (.value map) (button source call arguments span)
      (button source call (Value.renameItems map.relabel arguments) span) := by
  unfold button
  rw [head_renameItems, second_renameItems]
  refine alike_bind (alike_handlerOf source (below_head held)) ?_
  rintro later listener _ le ⟨below, rfl⟩
  refine alike_bind (alike_contentOf calls (below_second (held.mono le)) "Button") ?_
  rintro high _ label above rfl
  cases listener with
  | none => exact alike_newNode "button" ⟨trivial, trivial⟩ ⟨trivial, trivial⟩
  | some handler =>
    have kept : (Property.handler handler).Below (later + 1) := below handler rfl
    exact alike_newNode "button" ⟨trivial, kept.mono (Nat.succ_le_succ above), trivial⟩
      ⟨trivial, trivial⟩

private theorem imageAddress_rename (relabel : Nat → Nat) (address : Option Value) :
    imageAddress (address.map (Value.rename relabel)) = imageAddress address := by
  cases address with
  | none => rfl
  | some address =>
    have shown := Value.display_rename relabel address
    cases address <;> first | rfl | exact shown

private theorem imageWidth_rename (relabel : Nat → Nat) (options : Option Value) :
    imageWidth (options.map (Value.rename relabel)) = imageWidth options := by
  cases options with
  | none => rfl
  | some options =>
    cases options with
    | object identity entries =>
      have width := Value.get?_renameEntries relabel "width" entries
      unfold imageWidth
      rw [Option.map_some, Value.rename]
      dsimp only
      rw [width]
      cases Dictionary.get? "width" entries with
      | none => rfl
      | some width => simp
    | _ => rfl

private theorem alike_image (arguments : List Value) :
    Run.Alike unread bound (.value map) (image arguments)
      (image (Value.renameItems map.relabel arguments)) := by
  unfold image
  rw [head_renameItems, second_renameItems, imageAddress_rename, imageWidth_rename]
  exact alike_newNode "img" ⟨trivial, trivial, trivial⟩ trivial

private theorem alike_itemsOf {items : Option Value}
    (held : ∀ value, items = some value → value.Below bound) :
    Run.Alike unread bound (.values map) (itemsOf items span)
      (itemsOf (items.map (Value.rename map.relabel)) span) := by
  cases items with
  | none => exact alike_succeed ⟨trivial, rfl⟩
  | some items =>
    have below := held items rfl
    cases items with
    | null => exact alike_succeed ⟨trivial, rfl⟩
    | array identity items => exact alike_succeed ⟨below.2, rfl⟩
    | _ => exact alike_fail _ _

theorem alike_itemChild (calls : call.Alike unread) {renderer item : Value}
    (callable : renderer.Below bound) (held : item.Below bound) (index : Nat) :
    Run.Alike unread bound (.child map) (itemChild call renderer item index span)
      (itemChild call (renderer.rename map.relabel) (item.rename map.relabel) index span) := by
  unfold itemChild
  refine alike_bind (alike_apply calls callable [item, .number (Number.ofInt index)]
    ⟨held, trivial, trivial⟩) ?_
  rintro later rendered _ _ ⟨below, rfl⟩
  refine alike_bind (alike_childOf below) ?_
  rintro high made _ _ ⟨inner, rfl⟩
  cases made with
  | none => exact alike_fail _ _
  | some child => exact alike_succeed ⟨inner child rfl, rfl⟩

private theorem alike_itemShown (calls : call.Alike unread) {renderer item : Value}
    (callable : renderer.Below bound) (held : item.Below bound) (index : Nat) :
    Run.Alike unread bound (.child map) (itemShown call renderer item index span)
      (itemShown call (renderer.rename map.relabel) (item.rename map.relabel) index span) := by
  unfold itemShown
  refine alike_bind (Run.alike_attempt (alike_itemChild calls callable held index)) ?_
  rintro later result _ _ alike
  cases alike with
  | ok alike => exact alike_succeed alike
  | error error =>
    refine alike_bind (Run.alike_log _) ?_
    rintro high _ _ _ _
    exact alike_succeed ⟨⟨⟨trivial, trivial⟩, trivial, trivial⟩, rfl⟩

private theorem alike_itemChildren (calls : call.Alike unread) {renderer : Value} :
    ∀ (items : List Value) (index : Nat) {bound : Nat}, renderer.Below bound →
      Value.ItemsBelow bound items →
      Run.Alike unread bound (.children map) (itemChildren call renderer span index items)
        (itemChildren call (renderer.rename map.relabel) span index
          (Value.renameItems map.relabel items))
  | [], _, _, _, _ => alike_succeed ⟨trivial, rfl⟩
  | item :: rest, index, bound, callable, held => by
    rw [Value.renameItems, itemChildren, itemChildren]
    refine alike_bind (alike_itemShown calls callable held.1 index) ?_
    rintro later child _ le ⟨first, rfl⟩
    refine alike_bind (alike_itemChildren calls rest (index + 1) (callable.mono le) (held.2.mono le)) ?_
    rintro high children _ above ⟨others, rfl⟩
    exact alike_succeed ⟨⟨first.mono above, others⟩, rfl⟩

private theorem alike_lazyColumn (calls : call.Alike unread) (held : Value.ItemsBelow bound arguments) :
    Run.Alike unread bound (.value map) (lazyColumn call arguments span)
      (lazyColumn call (Value.renameItems map.relabel arguments) span) := by
  unfold lazyColumn
  rw [head_renameItems, second_renameItems, getD_rename]
  refine alike_bind (alike_itemsOf (below_head held)) ?_
  rintro later items _ le ⟨below, rfl⟩
  dsimp only
  rw [Value.isCallable_rename]
  split
  · refine alike_bind
      (alike_itemChildren calls items 0 ((below_getD (below_second held)).mono le) below) ?_
    rintro high children _ _ ⟨inner, rfl⟩
    exact alike_newNode "div" ⟨trivial, trivial⟩ (inner.mono (Nat.le_succ high))
  · exact alike_fail _ _

private theorem alike_render (calls : call.Alike unread) (held : Value.ItemsBelow bound arguments) :
    Run.Alike unread bound (.value map) (render call arguments span)
      (render call (Value.renameItems map.relabel arguments) span) := by
  unfold render
  rw [head_renameItems, getD_rename]
  dsimp only
  rw [Value.isCallable_rename]
  split
  · refine alike_bind (alike_apply calls (below_getD (below_head held)) [] trivial) ?_
    rintro later produced _ _ ⟨below, rfl⟩
    cases produced with
    | node identity tree =>
      refine alike_bind (Run.alike_setRoot below.2) ?_
      rintro high _ _ _ _
      exact alike_value trivial
    | _ => exact alike_fail _ _
  · exact alike_fail _ _

private theorem alike_execute (arguments : List Value) :
    Run.Alike unread bound (.value map) (execute arguments)
      (execute (Value.renameItems map.relabel arguments)) := by
  have dispatched : ∀ action : Value, Run.Alike unread bound (.value map)
      (Run.dispatch action.display >>= fun _ => pure .null)
      (Run.dispatch (action.rename map.relabel).display >>= fun _ => pure .null) := by
    intro action
    rw [Value.display_rename]
    refine alike_bind (Run.alike_dispatch _) ?_
    rintro high _ _ _ _
    exact alike_value trivial
  unfold execute
  rw [head_renameItems]
  cases arguments.head? with
  | none => exact alike_value trivial
  | some action =>
    have performed := dispatched action
    cases action with
    | null => exact alike_value trivial
    | _ => exact performed

private theorem display_renameItems (relabel : Nat → Nat) (arguments : List Value) :
    (Value.renameItems relabel arguments).map Value.display = arguments.map Value.display := by
  rw [Value.renameItems_eq_map, List.map_map]
  exact List.map_congr_left (fun value _ => Value.display_rename relabel value)

private theorem alike_logLine (arguments : List Value) :
    Run.Alike unread bound (.value map) (logLine arguments)
      (logLine (Value.renameItems map.relabel arguments)) := by
  unfold logLine
  rw [display_renameItems]
  refine alike_bind (Run.alike_log _) ?_
  rintro high _ _ _ _
  exact alike_value trivial

private theorem alike_label (tag : String) (arguments : List Value) :
    Run.Alike unread bound (.value map) (label tag arguments)
      (label tag (Value.renameItems map.relabel arguments)) := by
  have shown : (Value.renameItems map.relabel arguments).head?.map Value.display =
      arguments.head?.map Value.display := by
    rw [← List.head?_map, display_renameItems, List.head?_map]
  unfold label
  rw [shown]
  exact alike_newNode tag trivial ⟨trivial, trivial⟩

private theorem alike_container (calls : call.Alike unread) (held : Value.ItemsBelow bound arguments)
    (entries : List (String × String)) :
    Run.Alike unread bound (.value map)
      (childrenOf call arguments.head? span >>= newNode "div" [style entries])
      (childrenOf call (Value.renameItems map.relabel arguments).head? span >>=
        newNode "div" [style entries]) := by
  rw [head_renameItems]
  refine alike_bind (alike_childrenOf calls (below_head held)) ?_
  rintro later children _ _ ⟨below, rfl⟩
  exact alike_newNode "div" ⟨trivial, trivial⟩ (below.mono (Nat.le_succ later))

theorem alike_runBuiltin (source : String) (calls : call.Alike unread) (behaviour : Behaviour)
    (held : Value.ItemsBelow bound arguments) :
    Run.Alike unread bound (.value map) (runBuiltin source call behaviour arguments span)
      (runBuiltin source call behaviour (Value.renameItems map.relabel arguments) span) := by
  cases behaviour with
  | column => exact alike_container calls held _
  | row => exact alike_container calls held _
  | text => exact alike_text calls held
  | button => exact alike_button source calls held
  | image => exact alike_image arguments
  | lazyColumn => exact alike_lazyColumn calls held
  | render => exact alike_render calls held
  | execute => exact alike_execute arguments
  | log => exact alike_logLine arguments
  | label tag => exact alike_label tag arguments

end Builders

section Calls

variable {call : Caller}

private theorem bindParameters_rename (relabel : Nat → Nat) (parameters : List String)
    (scope : Scope) (arguments : List Value) :
    bindParameters (Value.renameEntries relabel scope) parameters
        (Value.renameItems relabel arguments) =
      Value.renameEntries relabel (bindParameters scope parameters arguments) := by
  induction parameters generalizing scope arguments with
  | nil => cases arguments <;> rfl
  | cons parameter rest ih =>
    cases arguments with
    | nil => exact ih (Scope.bind parameter .null scope) []
    | cons argument others => exact ih (Scope.bind parameter argument scope) others

theorem alike_callClosure (calls : call.Alike unread) {closure : Closure} {arguments : List Value}
    (below : closure.Below bound) (held : Value.ItemsBelow bound arguments) :
    Run.Alike unread bound (.value map) (callClosure call closure arguments)
      (callClosure call (closure.rename map.relabel) (Value.renameItems map.relabel arguments)) := by
  obtain ⟨span, parameters, body, scope⟩ := closure
  have inner : Value.EntriesBelow bound (bindParameters scope parameters arguments) :=
    Value.entriesBelow_iff.mpr (hereditary_below.bindParameters (Value.entriesBelow_iff.mp below)
      (Value.itemsBelow_iff.mp held))
  unfold callClosure Closure.rename
  dsimp only
  rw [bindParameters_rename]
  cases body with
  | expression value => exact alike_evaluate calls value inner
  | block statements =>
    refine alike_bind (alike_executeBlock calls statements inner) ?_
    rintro later flow _ _ ⟨returned, rfl⟩
    cases flow with
    | next => exact alike_value trivial
    | result value => exact alike_value returned

private theorem alike_enter (source : String) (calls : call.Alike unread) {request : Call}
    (below : request.Below bound) :
    Run.Alike unread bound (.value map) (enter source call request)
      (enter source call (request.rename map.relabel)) := by
  obtain ⟨name, callee, arguments, span⟩ := request
  cases callee with
  | builtin known => exact alike_runBuiltin source calls known.behaviour below.arguments
  | function closure => exact alike_callClosure calls below.callee below.arguments
  | adder collector => exact alike_addTo below.arguments
  | _ => exact alike_fail _ _

theorem alike_callWithin (source : String) (room : Nat) :
    (callWithin source room).Alike unread := by
  induction room with
  | zero =>
    intro bound request _
    unfold callWithin Call.rename
    dsimp only
    rw [Value.isCallable_rename]
    split <;> exact alike_fail _ _
  | succ room ih =>
    intro bound request below
    unfold callWithin
    show Run.Alike _ _ _ _ (if (request.callee.rename map.relabel).isCallable = true then
      Run.withFrame ⟨request.name, request.span⟩
        (enter source (callWithin source room) (request.rename map.relabel)) else _)
    rw [Value.isCallable_rename]
    split
    · exact Run.alike_withFrame _ (alike_enter source ih below)
    · exact alike_fail _ _

end Calls

end ScreenStudio.Evaluation
