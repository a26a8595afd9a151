/- digest: The parts of a program, and why places that nest tell its arrow functions apart. -/

import Mathlib.Data.List.Pairwise
import ScreenStudio.Proofs.Source.Cutting

set_option autoImplicit false
set_option relaxedAutoImplicit false

namespace ScreenStudio.Source

/-- An expression or a statement. -/
inductive Part
  | expression (value : Expression)
  | statement (value : Statement)

namespace Part

def span : Part → Span
  | .expression value => value.span
  | .statement value => value.span

def ofBody : Body → List Part
  | .expression value => [.expression value]
  | .block statements => statements.map .statement

/-- The parts directly below a part, in the order in which they stand. -/
def inner : Part → List Part
  | .expression (.literal _ _) => []
  | .expression (.array _ items) => items.map .expression
  | .expression (.object _ entries) => entries.map fun entry => .expression entry.2
  | .expression (.name _ _) => []
  | .expression (.member _ target _) => [.expression target]
  | .expression (.index _ target key) => [.expression target, .expression key]
  | .expression (.call _ callee arguments) => .expression callee :: arguments.map .expression
  | .expression (.arrow _ _ body) => ofBody body
  | .expression (.unary _ _ operand) => [.expression operand]
  | .expression (.binary _ _ left right) => [.expression left, .expression right]
  | .expression (.conditional _ condition consequent alternative) =>
    [.expression condition, .expression consequent, .expression alternative]
  | .statement (.binding _ _ value) => [.expression value]
  | .statement (.expression _ value) => [.expression value]
  | .statement (.branch _ condition consequent alternative) =>
    .expression condition :: (consequent.map .statement ++ (alternative.getD []).map .statement)
  | .statement (.result _ value) => (value.map .expression).toList

/-- The part is an arrow function. -/
def IsArrow : Part → Prop
  | .expression (.arrow _ _ _) => True
  | _ => False

instance (part : Part) : Decidable part.IsArrow := by
  unfold IsArrow
  split <;> infer_instance

/-- The part itself, or what stands at some depth below the whole. -/
inductive Within : Part → Part → Prop
  | self (part : Part) : Within part part
  | inner {part middle whole : Part} (member : middle ∈ whole.inner) (within : Within part middle) :
    Within part whole

theorem Within.child {part middle whole : Part} (within : middle.Within whole)
    (member : part ∈ middle.inner) : part.Within whole := by
  induction within with
  | self => exact .inner member (.self part)
  | inner other _ ih => exact .inner other ih

end Part

/-- The span goes from the start of a token to the end of one, and is not empty. -/
structure Span.IsPlace (lexemes : List Lexeme) (span : Span) : Prop where
  first : ∃ lexeme ∈ lexemes, lexeme.span.start = span.start
  last : ∃ lexeme ∈ lexemes, lexeme.span.stop = span.stop
  nonempty : span.start < span.stop

theorem Span.IsPlace.mono {lexemes more : List Lexeme} {span : Span} (place : span.IsPlace lexemes)
    (subset : lexemes ⊆ more) : span.IsPlace more := by
  obtain ⟨⟨first, one, start⟩, ⟨last, two, stop⟩, nonempty⟩ := place
  exact ⟨⟨first, subset one, start⟩, ⟨last, subset two, stop⟩, nonempty⟩

/-- The spans lie between two offsets, one behind the other. -/
structure Span.Row (start stop : Nat) (spans : List Span) : Prop where
  within : ∀ span ∈ spans, start ≤ span.start ∧ span.stop ≤ stop
  apart : spans.Pairwise fun one two => one.stop ≤ two.start

theorem Span.Row.mono {start lower stop : Nat} {spans : List Span} (row : Span.Row start stop spans)
    (low : lower ≤ start) : Span.Row lower stop spans :=
  ⟨fun span member => (row.within span member).imp_left (Nat.le_trans low), row.apart⟩

section Extents

variable {start : Nat} {lexemes first second : List Lexeme}

theorem start_extentOf_append (nonempty : first ≠ []) :
    (extentOf (first ++ second)).start = (extentOf first).start := by
  obtain ⟨head, rest, rfl⟩ := List.exists_cons_of_ne_nil nonempty
  rfl

theorem stop_extentOf_append (nonempty : second ≠ []) :
    (extentOf (first ++ second)).stop = (extentOf second).stop := by
  obtain ⟨next, rest, rfl⟩ := List.exists_cons_of_ne_nil nonempty
  cases first with
  | nil => rfl
  | cons head front => exact stopOf_append head.span.stop front (next :: rest)

theorem extentOf_append (one : first ≠ []) (two : second ≠ []) :
    extentOf (first ++ second) = ⟨(extentOf first).start, (extentOf second).stop⟩ := by
  rw [← start_extentOf_append one, ← stop_extentOf_append two]

theorem Cuts.stop_le {offset : Nat} {cs : List Char} (cuts : Cuts offset cs lexemes) :
    ∀ lexeme ∈ lexemes, lexeme.span.stop ≤ offset + byteLength cs := by
  induction cuts with
  | done => exact List.forall_mem_nil _
  | @token offset blanks lexeme rest token lexemes blank is others ih =>
    rw [byteLength_append, byteLength_append]
    refine List.forall_mem_cons.mpr ⟨?_, fun other member => ?_⟩
    · show offset + byteLength blanks + byteLength lexeme ≤ _
      omega
    · have low := ih other member
      omega

theorem InOrder.filter (order : InOrder start lexemes) (keep : Lexeme → Bool) :
    InOrder start (lexemes.filter keep) :=
  ⟨fun lexeme member => order.behind lexeme (List.mem_of_mem_filter member),
    fun lexeme member => order.nonempty lexeme (List.mem_of_mem_filter member), order.ascending.filter keep⟩

theorem InOrder.cut (order : InOrder start (first ++ second)) :
    InOrder start first ∧ InOrder start second ∧
      ∀ one ∈ first, ∀ two ∈ second, one.span.stop ≤ two.span.start := by
  obtain ⟨behind, nonempty, ascending⟩ := order
  obtain ⟨low, high⟩ := List.forall_mem_append.mp behind
  obtain ⟨one, two⟩ := List.forall_mem_append.mp nonempty
  obtain ⟨left, right, across⟩ := List.pairwise_append.mp ascending
  exact ⟨⟨low, one, left⟩, ⟨high, two, right⟩, across⟩

private theorem InOrder.exists_last {head : Lexeme} (order : InOrder start (head :: lexemes)) :
    ∃ last ∈ head :: lexemes, last.span.stop = stopOf head.span.stop lexemes ∧
      ∀ lexeme ∈ head :: lexemes, lexeme.span.stop ≤ last.span.stop := by
  induction lexemes generalizing head with
  | nil => exact ⟨head, List.mem_singleton_self _, rfl, List.forall_mem_singleton.mpr (Nat.le_refl _)⟩
  | cons next rest ih =>
    obtain ⟨_, others, across⟩ := (show InOrder start ([head] ++ next :: rest) from order).cut
    obtain ⟨last, member, is, all⟩ := ih others
    refine ⟨last, List.mem_cons_of_mem _ member, is, List.forall_mem_cons.mpr ⟨?_, all⟩⟩
    have apart := across head (List.mem_singleton_self _) next (List.mem_cons_self ..)
    have nonempty := others.nonempty next (List.mem_cons_self ..)
    have low := all next (List.mem_cons_self ..)
    omega

/-- From the start of the first lexeme to the end of the last is a place, which holds them all. -/
theorem InOrder.extent (order : InOrder start lexemes) (nonempty : lexemes ≠ []) :
    (extentOf lexemes).IsPlace lexemes ∧ start ≤ (extentOf lexemes).start ∧
      (∀ lexeme ∈ lexemes, (extentOf lexemes).start ≤ lexeme.span.start) ∧
      ∀ lexeme ∈ lexemes, lexeme.span.stop ≤ (extentOf lexemes).stop := by
  obtain ⟨head, rest, rfl⟩ := List.exists_cons_of_ne_nil nonempty
  have member : head ∈ head :: rest := List.mem_cons_self ..
  have positive := order.nonempty head member
  obtain ⟨last, among, is, all⟩ := order.exists_last
  have stop : last.span.stop = (extentOf (head :: rest)).stop := is
  have place : (extentOf (head :: rest)).start < (extentOf (head :: rest)).stop :=
    stop ▸ Nat.lt_of_lt_of_le positive (all head member)
  refine ⟨⟨⟨head, member, rfl⟩, ⟨last, among, stop⟩, place⟩, order.behind head member,
    List.forall_mem_cons.mpr ⟨Nat.le_refl _, fun lexeme inside => ?_⟩, stop ▸ all⟩
  obtain ⟨_, _, across⟩ := (show InOrder start ([head] ++ rest) from order).cut
  exact Nat.le_trans (Nat.le_of_lt positive) (across head (List.mem_singleton_self _) lexeme inside)

theorem InOrder.inside (order : InOrder start (first ++ second)) (nonempty : first ≠ []) :
    InOrder ((extentOf (first ++ second)).start + 1) second := by
  obtain ⟨head, rest, rfl⟩ := List.exists_cons_of_ne_nil nonempty
  obtain ⟨front, behind, across⟩ := order.cut
  have member : head ∈ head :: rest := List.mem_cons_self ..
  refine ⟨fun lexeme inside => ?_, behind.nonempty, behind.ascending⟩
  exact Nat.le_trans (front.nonempty head member) (across head member lexeme inside)

end Extents

namespace Part

/-- Where the first part can start. The body of an arrow function starts behind its parameters. -/
def lead (part : Part) : Nat := if part.IsArrow then part.span.start + 1 else part.span.start

/-- The places of a part and of all that stands below it nest. -/
inductive Nests (lexemes : List Lexeme) : Part → Prop
  | part {part : Part} (place : part.span.IsPlace lexemes)
    (row : Span.Row part.lead part.span.stop (part.inner.map Part.span))
    (each : ∀ inner ∈ part.inner, Nests lexemes inner) : Nests lexemes part

section Nests

variable {lexemes more : List Lexeme} {part one two whole : Part} {parts : List Part}

theorem start_le_lead (part : Part) : part.span.start ≤ part.lead := by
  unfold lead
  split
  · exact Nat.le_succ _
  · exact Nat.le_refl _

theorem Nests.place (nests : part.Nests lexemes) : part.span.IsPlace lexemes := by
  cases nests with
  | part place => exact place

theorem Nests.mono (nests : part.Nests lexemes) (subset : lexemes ⊆ more) : part.Nests more := by
  induction nests with
  | part place row _ ih => exact .part (place.mono subset) row fun inner member => ih inner member

theorem Nests.within (nests : whole.Nests lexemes) (within : part.Within whole) :
    part.Nests lexemes ∧ whole.span.start ≤ part.span.start ∧ part.span.stop ≤ whole.span.stop := by
  induction within with
  | self => exact ⟨nests, Nat.le_refl _, Nat.le_refl _⟩
  | @inner _ whole member _ ih =>
    cases nests with
    | part place row each =>
      obtain ⟨own, low, high⟩ := ih (each _ member)
      obtain ⟨start, stop⟩ := row.within _ (List.mem_map_of_mem member)
      exact ⟨own, Nat.le_trans (Nat.le_trans whole.start_le_lead start) low, Nat.le_trans high stop⟩

theorem Nests.start_lt (nests : whole.Nests lexemes) (arrow : whole.IsArrow) {middle : Part}
    (member : middle ∈ whole.inner) (within : part.Within middle) : whole.span.start < part.span.start := by
  cases nests with
  | part place row each =>
    obtain ⟨start, _⟩ := row.within _ (List.mem_map_of_mem member)
    rw [lead, if_pos arrow] at start
    exact Nat.lt_of_lt_of_le start ((each _ member).within within).2.1

private theorem same_of_row {start stop : Nat} (row : Span.Row start stop (parts.map Part.span))
    (each : ∀ part ∈ parts, part.Nests lexemes) {first second : Part} (member : first ∈ parts)
    (here : one.Within first) (also : second ∈ parts) (there : two.Within second)
    (same : one.span = two.span) : first = second := by
  have apart := List.Pairwise.forall_of_forall_of_flip
      (R := fun one two : Part => one = two ∨ one.span.stop ≤ two.span.start ∨ two.span.stop ≤ one.span.start)
      (fun _ _ => .inl rfl)
      ((List.pairwise_map.mp row.apart).imp fun less => .inr (.inl less))
      ((List.pairwise_map.mp row.apart).imp fun less => .inr (.inr less)) member also
  obtain ⟨own, low, high⟩ := (each _ member).within here
  obtain ⟨_, start, stop⟩ := (each _ also).within there
  have nonempty := own.place.nonempty
  rw [same] at low high nonempty
  rcases apart with equal | before | behind
  · exact equal
  · omega
  · omega

theorem Nests.eq_of_span (nests : whole.Nests lexemes) (first : one.IsArrow) (second : two.IsArrow)
    (same : one.span = two.span) (here : one.Within whole) (there : two.Within whole) : one = two := by
  induction here with
  | self =>
    cases there with
    | self => rfl
    | inner member within =>
      have later := nests.start_lt first member within
      rw [same] at later
      exact absurd later (Nat.lt_irrefl _)
  | inner member within ih =>
    cases there with
    | self =>
      have later := nests.start_lt second member within
      rw [same] at later
      exact absurd later (Nat.lt_irrefl _)
    | inner also below =>
      cases nests with
      | part place row each =>
        have equal := same_of_row row each member within also below same
        rw [← equal] at below
        exact ih (each _ member) below

theorem eq_of_span {start stop : Nat} (row : Span.Row start stop (parts.map Part.span))
    (each : ∀ part ∈ parts, part.Nests lexemes) (first : one.IsArrow) (second : two.IsArrow)
    (same : one.span = two.span) (here : ∃ part ∈ parts, one.Within part)
    (there : ∃ part ∈ parts, two.Within part) : one = two := by
  obtain ⟨part, member, within⟩ := here
  obtain ⟨other, also, below⟩ := there
  have equal := same_of_row row each member within also below same
  rw [← equal] at below
  exact (each part member).eq_of_span first second same within below

end Nests

/-- The parts stand in the lexemes one behind the other. In front of what stands below a part some lexemes
belong to the part alone; an arrow function has such. -/
inductive Stand : List Part → List Lexeme → Prop
  | nothing (lexemes : List Lexeme) : Stand [] lexemes
  | part {part : Part} {parts : List Part} (before : List Lexeme) {front inside behind : List Lexeme}
    (nonempty : front ++ inside ≠ []) (place : part.span = extentOf (front ++ inside))
    (arrow : part.IsArrow → front ≠ []) (below : Stand part.inner inside) (others : Stand parts behind) :
    Stand (part :: parts) (before ++ ((front ++ inside) ++ behind))

namespace Stand

variable {lexemes first second : List Lexeme} {part : Part} {parts one two : List Part}

theorem skip (stand : Stand parts lexemes) (more : List Lexeme) : Stand parts (more ++ lexemes) := by
  cases stand with
  | nothing => exact .nothing _
  | part before nonempty place arrow below others =>
    rw [← List.append_assoc]
    exact .part (more ++ before) nonempty place arrow below others

theorem append (stand : Stand one first) (other : Stand two second) :
    Stand (one ++ two) (first ++ second) := by
  induction stand with
  | nothing lexemes => exact other.skip lexemes
  | part before nonempty place arrow below _ _ ih =>
    rw [List.append_assoc, List.append_assoc]
    exact .part before nonempty place arrow below ih

theorem behind (stand : Stand parts lexemes) (more : List Lexeme) : Stand parts (lexemes ++ more) := by
  have both := stand.append (.nothing more)
  rw [List.append_nil] at both
  exact both

theorem brackets (stand : Stand parts lexemes) (opening closing : Lexeme) :
    Stand parts (opening :: (lexemes ++ [closing])) := (stand.behind [closing]).skip [opening]

theorem whole (nonempty : lexemes ≠ []) (place : part.span = extentOf lexemes) (plain : ¬ part.IsArrow)
    (below : Stand part.inner lexemes) : Stand [part] lexemes := by
  have all : Stand [part] ([] ++ (([] ++ lexemes) ++ [])) :=
    .part [] nonempty place (fun is => absurd is plain) below (.nothing [])
  rw [List.append_nil] at all
  exact all

theorem nests (stand : Stand parts lexemes) {start stop : Nat} (order : InOrder start lexemes)
    (high : ∀ lexeme ∈ lexemes, lexeme.span.stop ≤ stop) :
    Span.Row start stop (parts.map Part.span) ∧ ∀ part ∈ parts, part.Nests lexemes := by
  induction stand generalizing start stop with
  | nothing => exact ⟨⟨List.forall_mem_nil _, .nil⟩, List.forall_mem_nil _⟩
  | @part part parts before front inside behind nonempty place arrow _ _ inner others =>
    have lexemesOwn : front ++ inside ⊆ before ++ ((front ++ inside) ++ behind) := fun lexeme member =>
      List.mem_append_right _ (List.mem_append_left _ member)
    have lexemesInside : inside ⊆ before ++ ((front ++ inside) ++ behind) := fun lexeme member =>
      lexemesOwn (List.mem_append_right _ member)
    have lexemesBehind : behind ⊆ before ++ ((front ++ inside) ++ behind) := fun lexeme member =>
      List.mem_append_right _ (List.mem_append_right _ member)
    obtain ⟨own, rest, apart⟩ := order.cut.2.1.cut
    obtain ⟨isPlace, low, starts, stops⟩ := own.extent nonempty
    rw [← place] at isPlace low starts stops
    obtain ⟨last, member, is⟩ := isPlace.last
    have stopHigh : part.span.stop ≤ stop := is ▸ high last (lexemesOwn member)
    have orderInside : InOrder part.lead inside := by
      unfold lead
      split
      · rename_i isArrow
        exact place ▸ own.inside (arrow isArrow)
      · exact ⟨(List.forall_mem_append.mp starts).2, own.cut.2.1.nonempty, own.cut.2.1.ascending⟩
    have orderBehind : InOrder part.span.stop behind :=
      ⟨fun lexeme among => is ▸ apart last member lexeme among, rest.nonempty, rest.ascending⟩
    obtain ⟨rowInside, eachInside⟩ := inner orderInside (List.forall_mem_append.mp stops).2
    obtain ⟨rowBehind, eachBehind⟩ := others orderBehind fun lexeme among => high lexeme (lexemesBehind among)
    have lowBehind : start ≤ part.span.stop := Nat.le_trans low (Nat.le_of_lt isPlace.nonempty)
    refine ⟨⟨List.forall_mem_cons.mpr ⟨⟨low, stopHigh⟩, fun span among => ?_⟩,
      List.pairwise_cons.mpr ⟨fun span among => (rowBehind.within span among).1, rowBehind.apart⟩⟩,
      List.forall_mem_cons.mpr ⟨?_, fun other among => (eachBehind other among).mono lexemesBehind⟩⟩
    · exact ⟨Nat.le_trans lowBehind (rowBehind.within span among).1, (rowBehind.within span among).2⟩
    · exact .part (isPlace.mono lexemesOwn) rowInside fun other among =>
        (eachInside other among).mono lexemesInside

end Stand

end Part

end ScreenStudio.Source
