/- digest: The template of a screen shows the name of the screen if the name is one line. -/

import ScreenStudio.Evaluation.Program
import ScreenStudio.Proofs.Evaluation.Passage
import ScreenStudio.Proofs.Source.Template

/-!
What a template is read as is known up to places, and so is what runs. Each builder is called with an arrow
function, and none of the calls does more than make a node, hand it to the container around it, or make it the
root. A name of several lines is another matter: a word on its second line is looked up when the template
runs.
-/

set_option autoImplicit false
set_option relaxedAutoImplicit false

namespace ScreenStudio

namespace Source

section Shapes

variable {read : Expression}

theorem exists_of_bare_call {word : String} {argument : Expression}
    (same : read.bare = callOf word argument) :
    ∃ span place value, read = .call span (.name place word) [value] ∧ value.bare = argument := by
  cases read with
  | call span callee arguments =>
    rw [Expression.bare, Expression.bareList_eq_map] at same
    obtain ⟨_, named, row⟩ := Expression.call.inj same
    obtain ⟨value, rfl, rfl⟩ := List.map_eq_singleton_iff.mp row
    cases callee with
    | name place own =>
      cases named
      exact ⟨span, place, value, rfl, rfl⟩
    | _ => cases named
  | _ => cases same

theorem exists_of_bare_arrow {names : List String} {body : Body}
    (same : read.bare = .arrow nowhere names body) :
    ∃ span own, read = .arrow span names own ∧ own.bare = body := by
  cases read with
  | arrow span own inner =>
    cases same
    exact ⟨span, inner, rfl, rfl⟩
  | _ => cases same

theorem exists_of_bare_value {body : Body} {value : Expression} (same : body.bare = .expression value) :
    ∃ own, body = .expression own ∧ own.bare = value := by
  cases body with
  | expression own =>
    cases same
    exact ⟨own, rfl, rfl⟩
  | block => cases same

theorem exists_of_bare_block {body : Body} {statements : List Statement}
    (same : body.bare = .block statements) :
    ∃ own, body = .block own ∧ Statement.bareList own = statements := by
  cases body with
  | expression => cases same
  | block own =>
    cases same
    exact ⟨own, rfl, rfl⟩

theorem exists_of_bare_statement {statement : Statement} {value : Expression}
    (same : statement.bare = .expression nowhere value) :
    ∃ span own, statement = .expression span own ∧ own.bare = value := by
  cases statement with
  | expression span own =>
    cases same
    exact ⟨span, own, rfl, rfl⟩
  | binding => cases same
  | branch span condition consequent alternative =>
    rw [Statement.bare_branch] at same
    cases same
  | result span given => cases given <;> cases same

end Shapes

end Source

namespace Evaluation

open Source

/-- The node that shows a text. -/
def labelNode (text : String) : Node :=
  .mk "div" [style [("color", "#e6f6ff"), ("fontSize", "14px")]] [.text text]

/-- The column that holds the text. -/
def shownNode (text : String) : Node :=
  .mk "div" [style [("display", "flex"), ("flexDirection", "column"), ("gap", "8px")]]
    [.node (labelNode text)]

theorem textContent_shownNode (text : String) : (shownNode text).textContent = text := by
  show (text ++ "") ++ "" = text
  rw [String.append_empty, String.append_empty]

section Successes

variable {source : String} {room : Nat} {call : Caller} {span : Span} {value : Value}
  {machine after : Machine}

theorem callWithin_ok (request : Call) (machine : Machine) (callable : request.callee.isCallable = true)
    (ran : enter source (callWithin source room) request
      { machine with frames := ⟨request.name, request.span⟩ :: machine.frames } = (.ok value, after)) :
    callWithin source (room + 1) request machine =
      (.ok value, { after with frames := after.frames.tail }) := by
  have call : callWithin source (room + 1) request =
      Run.withFrame ⟨request.name, request.span⟩ (enter source (callWithin source room) request) :=
    if_pos callable
  rw [call, Run.withFrame, ran]

theorem evaluate_call {scope : Scope} {word : String} {function : Value}
    (found : Scope.lookup? word scope = some function) {argument : Expression}
    (ran : evaluate call scope argument machine = (.ok value, after)) (place : Span) :
    evaluate call scope (.call span (.name place word) [argument]) machine =
      call ⟨word, function, [value], span⟩ after := by
  have name : evaluate call scope (.name place word) machine = (.ok function, machine) := by
    rw [evaluate, found]
    rfl
  have row : evaluateItems call scope [argument] machine = (.ok [value], after) := by
    rw [evaluateItems, Run.bind_of_ok ran]
    rfl
  rw [evaluate, Run.bind_of_ok name, Run.bind_of_ok row]
  rfl

theorem executeBlock_expression {scope : Scope} {read : Expression}
    (ran : evaluate call scope read machine = (.ok value, after)) (origin : Span) (rest : List Statement) :
    executeBlock call scope (.expression origin read :: rest) machine =
      executeBlock call scope rest after := by
  have stepped : executeStatement call scope (.expression origin read) machine =
      (.ok (.goOn scope), after) := by
    rw [executeStatement, Run.bind_of_ok ran]
    rfl
  rw [executeBlock, Run.bind_of_ok stepped]

theorem column_ok (call : Caller) (builder : Value) (span : Span) (machine : Machine)
    (callable : builder.isCallable = true)
    (ran : call.apply builder [.adder machine.next] span { machine with
      next := machine.next + 1, collectors := (machine.next, []) :: machine.collectors } =
        (.ok value, after)) :
    column call [builder] span machine =
      (.ok (.node after.next (.mk "div"
        [style [("display", "flex"), ("flexDirection", "column"), ("gap", "8px")]]
        (Run.collected machine.next after.collectors))),
      { after with
        next := after.next + 1
        collectors := after.collectors.filter (fun entry => entry.1 != machine.next) }) := by
  have children : childrenOf call (some builder) span machine =
      (.ok (Run.collected machine.next after.collectors), { after with
        collectors := after.collectors.filter (fun entry => entry.1 != machine.next) }) := by
    have called : call ⟨traceName builder, builder, [.adder machine.next], span⟩ machine.collecting =
        (.ok value, after) := ran
    rw [childrenOf_eq call callable, called]
    rfl
  rw [column, List.head?_cons, Run.bind_of_ok children]
  rfl

theorem addTo_ok {collector identity : Nat} {children : List Child} {node : Node}
    (alone : machine.collectors = [(collector, children)]) :
    addTo collector [.node identity node] span machine =
      (.ok .null, { machine with collectors := [(collector, children ++ [.node node])] }) := by
  have open_ : machine.collectors.any (fun entry => entry.1 == collector) = true := by
    rw [alone, List.any_cons, beq_self_eq_true, Bool.true_or]
  have collected : Run.collect collector [.node node] machine =
      (.ok true, { machine with collectors := [(collector, children ++ [.node node])] }) := by
    rw [Run.collect, if_pos open_, alone, List.map_singleton, if_pos rfl]
  have child : childOf (.node identity node) span machine = (.ok (some (.node node)), machine) := rfl
  have taken : addTo collector [.node identity node] span machine = _ :=
    (Run.bind_of_ok child).trans (Run.bind_of_ok collected)
  exact taken

end Successes

section Runs

variable {read : Expression} {scope : Scope} {text : String} (source : String) (room : Nat)

theorem evaluate_labelling (same : read.bare = labelling text)
    (found : Scope.lookup? "Text" scope = some (.builtin ⟨"Text", .text⟩)) (machine : Machine) :
    evaluate (callWithin source (room + 2)) scope read machine =
      (.ok (.node machine.next (labelNode text)), { machine with next := machine.next + 1 }) := by
  obtain ⟨span, place, argument, rfl, arrow⟩ := exists_of_bare_call same
  obtain ⟨origin, body, rfl, inner⟩ := exists_of_bare_arrow arrow
  obtain ⟨value, rfl, literal⟩ := exists_of_bare_value inner
  cases value with
  | literal spot content =>
    cases literal
    rw [evaluate_call found rfl]
    rfl
  | _ => cases literal

theorem executeBlock_labelling {block : List Statement}
    (same : Statement.bareList block = [.expression nowhere (callOf "add" (labelling text))])
    {collector : Nat} (adder : Scope.lookup? "add" scope = some (.adder collector))
    (found : Scope.lookup? "Text" scope = some (.builtin ⟨"Text", .text⟩)) {machine : Machine}
    (alone : machine.collectors = [(collector, [])]) :
    executeBlock (callWithin source (room + 2)) scope block machine =
      (.ok .next, { machine with
        next := machine.next + 1, collectors := [(collector, [.node (labelNode text)])] }) := by
  rw [Statement.bareList_eq_map] at same
  obtain ⟨statement, rfl, sole⟩ := List.map_eq_singleton_iff.mp same
  obtain ⟨origin, value, rfl, calls⟩ := exists_of_bare_statement sole
  obtain ⟨span, place, argument, rfl, label⟩ := exists_of_bare_call calls
  have made := evaluate_labelling source room label found machine
  have added : evaluate (callWithin source (room + 2)) scope
      (.call span (.name place "add") [argument]) machine = (.ok .null, { machine with
        next := machine.next + 1, collectors := [(collector, [.node (labelNode text)])] }) := by
    rw [evaluate_call adder made]
    exact callWithin_ok ⟨"add", .adder collector, [.node machine.next (labelNode text)], span⟩
      { machine with next := machine.next + 1 } rfl (addTo_ok alone)
  exact executeBlock_expression added origin []

theorem evaluate_stacking (same : read.bare = stacking text)
    (column : Scope.lookup? "Column" scope = some (.builtin ⟨"Column", .column⟩))
    (found : Scope.lookup? "Text" scope = some (.builtin ⟨"Text", .text⟩)) {machine : Machine}
    (empty : machine.collectors = []) :
    evaluate (callWithin source (room + 4)) scope read machine =
      (.ok (.node (machine.next + 2) (shownNode text)), { machine with next := machine.next + 3 }) := by
  obtain ⟨span, place, argument, rfl, arrow⟩ := exists_of_bare_call same
  obtain ⟨origin, body, rfl, inner⟩ := exists_of_bare_arrow arrow
  obtain ⟨block, rfl, statements⟩ := exists_of_bare_block inner
  rw [evaluate_call column rfl]
  let builder : Closure := ⟨origin, ["add"], .block block, scope⟩
  let inner : Scope := Scope.bind "add" (.adder machine.next) scope
  let outside : Machine := { machine with frames := ⟨"Column", span⟩ :: machine.frames }
  let inside : Machine := { machine with
    frames := ⟨"<anonymous>", span⟩ :: outside.frames
    next := machine.next + 1
    collectors := (machine.next, []) :: machine.collectors }
  have adder : Scope.lookup? "add" inner = some (.adder machine.next) := if_pos rfl
  have label : Scope.lookup? "Text" inner = some (.builtin ⟨"Text", .text⟩) :=
    (if_neg (by decide)).trans found
  have alone : inside.collectors = [(machine.next, [])] := congrArg (List.cons _) empty
  have called : callClosure (callWithin source (room + 2)) builder [.adder machine.next] inside = _ :=
    Run.bind_of_ok (executeBlock_labelling source room statements adder label alone)
  have built := column_ok (callWithin source (room + 3)) (.function builder) span outside rfl
    (callWithin_ok ⟨"<anonymous>", .function builder, [.adder machine.next], span⟩
      { outside with next := inside.next, collectors := inside.collectors } rfl called)
  have done := callWithin_ok ⟨"Column", .builtin ⟨"Column", .column⟩, [.function builder], span⟩ machine rfl
    built
  have taken : Run.collected machine.next [(machine.next, [Child.node (labelNode text)])] =
      [.node (labelNode text)] := if_pos rfl
  have closed : [(machine.next, [Child.node (labelNode text)])].filter
      (fun entry => entry.1 != machine.next) = [] :=
    List.filter_cons_of_neg (by rw [bne_self_eq_false]; exact Bool.false_ne_true)
  rw [done]
  dsimp only
  rw [taken, closed, ← empty]
  rfl

theorem evaluate_showing (same : read.bare = showing text)
    (render : Scope.lookup? "render" scope = some (.builtin ⟨"render", .render⟩))
    (column : Scope.lookup? "Column" scope = some (.builtin ⟨"Column", .column⟩))
    (found : Scope.lookup? "Text" scope = some (.builtin ⟨"Text", .text⟩)) {machine : Machine}
    (empty : machine.collectors = []) :
    evaluate (callWithin source (room + 6)) scope read machine =
      (.ok .null, { machine with next := machine.next + 3, root := some (shownNode text) }) := by
  obtain ⟨span, place, argument, rfl, arrow⟩ := exists_of_bare_call same
  obtain ⟨origin, body, rfl, inner⟩ := exists_of_bare_arrow arrow
  obtain ⟨value, rfl, stack⟩ := exists_of_bare_value inner
  rw [evaluate_call render rfl]
  let producer : Closure := ⟨origin, [], .expression value, scope⟩
  let outside : Machine := { machine with frames := ⟨"render", span⟩ :: machine.frames }
  let inside : Machine := { outside with frames := ⟨"<anonymous>", span⟩ :: outside.frames }
  have made : callClosure (callWithin source (room + 4)) producer [] inside = _ :=
    evaluate_stacking source room stack column found empty
  have produced := callWithin_ok ⟨"<anonymous>", .function producer, [], span⟩ outside rfl made
  have shown : Evaluation.render (callWithin source (room + 5)) [.function producer] span outside = _ :=
    Run.bind_of_ok produced
  exact callWithin_ok ⟨"render", .builtin ⟨"render", .render⟩, [.function producer], span⟩ machine rfl shown

end Runs

section Templates

/-- No character of the text ends a line. -/
def IsLine (text : String) : Prop := ∀ c ∈ text.toList, isLineEnd c = false

instance (text : String) : Decidable (IsLine text) :=
  List.decidableBAll (fun c => isLineEnd c = false) text.toList

/-- The names that a screen with the standard builders can use. -/
def standardNames : List String :=
  "state" :: (Vocabulary.standard.builders ++ Vocabulary.hostFunctions).map Builtin.name

theorem lookup?_of_notMem {word : String} (unknown : word ∉ standardNames) (state : Value) :
    Scope.lookup? word (Vocabulary.standard.scope state) = none := by
  have bound : ∀ (scope : Scope), (∀ entry ∈ scope, entry.1 ≠ word) → Scope.lookup? word scope = none := by
    intro scope others
    induction scope with
    | nil => rfl
    | cons entry rest ih =>
      obtain ⟨different, more⟩ := List.forall_mem_cons.mp others
      exact (if_neg different).trans (ih more)
  refine bound _ fun entry member same => unknown ?_
  have names : (Vocabulary.standard.scope state).map Prod.fst ⊆ standardNames := by
    show ["state", "log", "execute", "render", "LazyColumn", "Image", "Button", "Text", "Row", "Column"] ⊆ _
    decide
  exact names (same ▸ List.mem_map_of_mem member)

theorem exists_of_mem_standardNames {word : String} (known : word ∈ standardNames) (state : Value) :
    ∃ value, Scope.lookup? word (Vocabulary.standard.scope state) = some value := by
  have names : word ∈ ["state", "Column", "Row", "Text", "Button", "Image", "LazyColumn", "render", "execute",
      "log"] := known
  simp only [List.mem_cons, List.not_mem_nil, or_false] at names
  rcases names with rfl | rfl | rfl | rfl | rfl | rfl | rfl | rfl | rfl | rfl <;> exact ⟨_, rfl⟩

/-- The first word that is no name of the standard builders. -/
def firstUnknown? (rows : List (String × String)) : Option (String × String) :=
  rows.find? fun row => decide (row.2 ∉ standardNames)

theorem firstUnknown?_eq_none_iff {rows : List (String × String)} :
    firstUnknown? rows = none ↔ ∀ row ∈ rows, row.2 ∈ standardNames := by
  unfold firstUnknown?
  rw [List.find?_eq_none]
  simp only [decide_eq_true_eq, Decidable.not_not]

/-- Words as statements do nothing until the first that is unknown, where the block fails. -/
theorem executeBlock_words {rows : List (String × String)} {read tail : List Statement}
    (same : Statement.bareList read =
      rows.map (fun row => .expression nowhere (.name nowhere row.2)) ++ tail)
    (call : Caller) (state : Value) (machine : Machine) :
    (∀ row, firstUnknown? rows = some row → ∃ place,
      executeBlock call (Vocabulary.standard.scope state) read machine =
        (.error ⟨.notDefined row.2, traceFrom place machine.frames⟩, machine)) ∧
    (firstUnknown? rows = none → ∃ rest, Statement.bareList rest = tail ∧
      executeBlock call (Vocabulary.standard.scope state) read machine =
        executeBlock call (Vocabulary.standard.scope state) rest machine) := by
  induction rows generalizing read with
  | nil => exact ⟨nofun, fun _ => ⟨read, same, rfl⟩⟩
  | cons row others ih =>
    rw [Statement.bareList_eq_map] at same
    obtain ⟨statement, rest, rfl, head, behind⟩ := List.map_eq_cons_iff.mp same
    rw [← Statement.bareList_eq_map] at behind
    obtain ⟨origin, value, rfl, lone⟩ := exists_of_bare_statement head
    cases value with
    | name place own =>
      cases lone
      by_cases known : row.2 ∈ standardNames
      · obtain ⟨found, is⟩ := exists_of_mem_standardNames known state
        have ran : evaluate call (Vocabulary.standard.scope state) (.name place row.2) machine =
            (.ok found, machine) := by
          rw [evaluate, is]
          rfl
        have next : firstUnknown? (row :: others) = firstUnknown? others :=
          List.find?_cons_of_neg (by simpa using known)
        rw [executeBlock_expression ran origin rest, next]
        exact ih behind
      · have next : firstUnknown? (row :: others) = some row :=
          List.find?_cons_of_pos (decide_eq_true known)
        rw [next]
        refine ⟨fun first is => ⟨place, ?_⟩, nofun⟩
        cases is
        rw [executeBlock, executeStatement, evaluate, lookup?_of_notMem known]
        rfl
    | _ => cases lone

/-- The template of the name is a program that shows the name with the standard builders, whatever the state
is, and tells the host nothing. -/
def ShowsName (name : String) : Prop :=
  (∃ statements, program (Screen.template name) = .ok statements) ∧
    ∀ next state host, ∃ root, screenFrom next (Screen.template name) .standard state host =
      (.ok root, host) ∧ root.textContent = "This is " ++ name

section Rows

variable {first : String} {rows : List (String × String)}

theorem screenFrom_of_unknown (line : IsLine first) (words : AreWords rows) {row : String × String}
    (unknown : firstUnknown? rows = some row) (next : Nat) (state : Json) (host : Recording) :
    ∃ stack, screenFrom next (Screen.template (first ++ wordsText rows)) .standard state host =
      (.error (.runtime (.notDefined row.2) stack), host) := by
  obtain ⟨read, accepted, same⟩ := program_template line words
  obtain ⟨failing, _⟩ := executeBlock_words same
    (callWithin (Screen.template (first ++ wordsText rows)) callLimit) (Value.ofJson next state).1
    (.initial (Value.ofJson next state).2 host)
  obtain ⟨place, failed⟩ := failing row unknown
  refine ⟨[⟨programName, positionAt (Screen.template (first ++ wordsText rows)) place.start⟩], ?_⟩
  rw [screenFrom, accepted]
  dsimp only
  rw [failed]
  rfl

theorem showsName_of_known (line : IsLine first) (words : AreWords rows)
    (known : ∀ row ∈ rows, row.2 ∈ standardNames) : ShowsName (first ++ wordsText rows) := by
  obtain ⟨read, accepted, same⟩ := program_template line words
  refine ⟨⟨read, accepted⟩, fun next state host => ⟨_, ?_, textContent_shownNode _⟩⟩
  let call : Caller := callWithin (Screen.template (first ++ wordsText rows)) callLimit
  let machine : Machine := .initial (Value.ofJson next state).2 host
  obtain ⟨_, passing⟩ := executeBlock_words same call (Value.ofJson next state).1 machine
  obtain ⟨rest, sole, passed⟩ := passing (firstUnknown?_eq_none_iff.mpr known)
  rw [Statement.bareList_eq_map] at sole
  obtain ⟨statement, rfl, calls⟩ := List.map_eq_singleton_iff.mp sole
  obtain ⟨origin, value, rfl, shows⟩ := exists_of_bare_statement calls
  have empty : machine.collectors = [] := rfl
  have shown : evaluate call (Vocabulary.standard.scope (Value.ofJson next state).1) value machine = _ :=
    evaluate_showing (Screen.template (first ++ wordsText rows)) 250 shows rfl rfl rfl empty
  have ran := passed.trans (executeBlock_expression shown origin [])
  rw [screenFrom, accepted]
  dsimp only
  rw [ran]
  rfl

/-- The template of a screen shows the name of the screen if the name is one line. What stands behind the
first line of the name is code: words there are looked up, so the name is shown exactly if all of them are
names of the standard builders, and otherwise the screen fails with the first that is not defined. -/
theorem template_shows_name (line : IsLine first) (words : AreWords rows) :
    (ShowsName (first ++ wordsText rows) ↔ ∀ row ∈ rows, row.2 ∈ standardNames) ∧
    ∀ row, firstUnknown? rows = some row → ∀ next state host, ∃ stack,
      screenFrom next (Screen.template (first ++ wordsText rows)) .standard state host =
        (.error (.runtime (.notDefined row.2) stack), host) := by
  refine ⟨⟨fun shows => ?_, showsName_of_known line words⟩,
    fun row unknown => screenFrom_of_unknown line words unknown⟩
  rw [← firstUnknown?_eq_none_iff]
  cases unknown : firstUnknown? rows with
  | none => rfl
  | some row =>
    obtain ⟨root, shown, _⟩ := shows.2 0 .null .empty
    obtain ⟨stack, failed⟩ := screenFrom_of_unknown line words unknown 0 .null .empty
    cases shown.symm.trans failed

/-- A name of two lines, of which the second is a word. -/
theorem second_line_is_looked_up : ¬ ShowsName "multi\nline" ∧ ∀ next state host, ∃ stack,
    screenFrom next (Screen.template "multi\nline") .standard state host =
      (.error (.runtime (.notDefined "line") stack), host) := by
  have words : AreWords [("\n", "line")] := by
    refine ⟨?_, List.forall_mem_singleton.mpr ⟨by decide, List.forall_mem_singleton.mpr rfl⟩,
      List.forall_mem_singleton.mpr (by decide)⟩
    intro row is c head
    cases is
    cases head
    rfl
  have name : "multi" ++ wordsText [("\n", "line")] = "multi\nline" := rfl
  obtain ⟨shows, fails⟩ := template_shows_name (show IsLine "multi" by decide) words
  rw [name] at shows fails
  refine ⟨fun shown => ?_, fails ("\n", "line") (by decide)⟩
  exact absurd (shows.mp shown _ (List.mem_singleton_self _)) (by decide)

end Rows

end Templates

end Evaluation

end ScreenStudio
