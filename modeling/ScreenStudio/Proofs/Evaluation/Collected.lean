/- digest: What an evaluation adds to open collectors, and which collectors it opens. -/

import ScreenStudio.Proofs.Evaluation.Bounded

set_option autoImplicit false
set_option relaxedAutoImplicit false

namespace ScreenStudio.Evaluation

variable {source : String}

namespace Machine

/-- The collectors that are open. -/
def openIds (machine : Machine) : List Nat := machine.collectors.map Prod.fst

/-- The identities of the open collectors have been handed out. -/
def Fresh (machine : Machine) : Prop := ∀ collector ∈ machine.openIds, collector < machine.next

/-- The same collectors are open and have collected some more children. -/
structure Gains (children : Nat → List Child) (before after : Machine) : Prop where
  collectors : after.collectors =
    before.collectors.map (fun entry => (entry.1, entry.2 ++ children entry.1))
  next : before.next ≤ after.next

namespace Gains

variable {before middle after : Machine} {children others : Nat → List Child}

theorem of_still (still : before.Still after) : Gains (fun _ => []) before after := by
  refine ⟨?_, still.next⟩
  rw [still.collectors]
  refine ((List.map_congr_left (fun entry _ => ?_)).trans (List.map_id _)).symm
  rw [List.append_nil]
  rfl

theorem trans (first : Gains children before middle) (second : Gains others middle after) :
    Gains (fun collector => children collector ++ others collector) before after := by
  refine ⟨?_, Nat.le_trans first.next second.next⟩
  rw [second.collectors, first.collectors, List.map_map]
  refine List.map_congr_left (fun entry _ => ?_)
  show (entry.1, (entry.2 ++ _) ++ _) = _
  rw [List.append_assoc]

theorem openIds_eq (gains : Gains children before after) : after.openIds = before.openIds := by
  unfold openIds
  rw [gains.collectors, List.map_map]
  rfl

theorem fresh (gains : Gains children before after) (fresh : before.Fresh) : after.Fresh := by
  intro collector member
  rw [gains.openIds_eq] at member
  exact Nat.lt_of_lt_of_le (fresh collector member) gains.next

end Gains

theorem Still.fresh {before after : Machine} (still : before.Still after) (fresh : before.Fresh) :
    after.Fresh := (Gains.of_still still).fresh fresh

theorem Still.openIds_eq {before after : Machine} (still : before.Still after) :
    after.openIds = before.openIds := (Gains.of_still still).openIds_eq

/-- From a machine that is fresh to one that is fresh, with the same collectors open. -/
def Keeps (before after : Machine) : Prop :=
  before.Fresh → after.Fresh ∧ after.openIds = before.openIds

theorem Still.keeps {before after : Machine} (still : before.Still after) : before.Keeps after :=
  fun fresh => ⟨still.fresh fresh, still.openIds_eq⟩

theorem Keeps.trans {before middle after : Machine} (first : before.Keeps middle)
    (second : middle.Keeps after) : before.Keeps after := by
  intro fresh
  obtain ⟨between, same⟩ := first fresh
  obtain ⟨last, again⟩ := second between
  exact ⟨last, again.trans same⟩

theorem fresh_collecting {machine : Machine} (fresh : machine.Fresh) : machine.collecting.Fresh :=
  List.forall_mem_cons.mpr
    ⟨Nat.lt_succ_self _, fun collector member => Nat.lt_succ_of_lt (fresh collector member)⟩

theorem closing_gains {machine after : Machine} {children : Nat → List Child}
    (fresh : machine.Fresh) (gains : Gains children machine.collecting after) :
    Gains children machine (after.closing machine.next) := by
  refine ⟨?_, Nat.le_of_succ_le gains.next⟩
  show after.collectors.filter _ = _
  rw [gains.collectors]
  show List.filter _ ((machine.next, [] ++ children machine.next) :: _) = _
  rw [List.filter_cons_of_neg (by simp)]
  refine List.filter_eq_self.mpr (fun entry member => ?_)
  obtain ⟨old, found, rfl⟩ := List.mem_map.mp member
  have older := fresh old.1 (List.mem_map.mpr ⟨old, found, rfl⟩)
  exact bne_iff_ne.mpr (Nat.ne_of_lt older)

end Machine

open Machine (Gains)

namespace Point

/-- What the points within a point add to a collector, in order. -/
def added (source : String) (collector : Nat) (point : Point) : List Child :=
  (point.points source).flatMap (fun inner => inner.activity.added collector)

/-- What some points and the points within them add to a collector. -/
def addedBy (source : String) (parts : List Point) (collector : Nat) : List Child :=
  parts.flatMap (added source collector)

theorem added_eq (source : String) (collector : Nat) (point : Point) :
    point.added source collector =
      point.activity.added collector ++ addedBy source (point.parts source) collector := by
  rw [added, points_eq, List.flatMap_cons, inner, List.flatMap_assoc]
  rfl

end Point

theorem Passes.gains {before after : Machine} {parts : List Point} {failure : Option RuntimeError}
    (passes : Passes source before parts failure after)
    (across : ∀ part ∈ parts, part.machine.Fresh →
      Gains (fun collector => part.added source collector) part.machine (part.after source))
    (fresh : before.Fresh) : Gains (Point.addedBy source parts) before after := by
  have more : ∀ {before after : Machine} {part : Point} {rest : List Point},
      before.Still part.machine →
      (part.machine.Fresh →
        Gains (fun collector => part.added source collector) part.machine (part.after source)) →
      ((part.after source).Fresh → Gains (Point.addedBy source rest) (part.after source) after) →
      before.Fresh → Gains (Point.addedBy source (part :: rest)) before after := by
    intro before after part rest still first others fresh
    have gains := first (still.fresh fresh)
    have reached := (Gains.of_still still).trans gains
    have all := reached.trans (others (gains.fresh (still.fresh fresh)))
    exact ⟨all.collectors, all.next⟩
  let along (before : Machine) (parts : List Point) (after : Machine) : Prop :=
    before.Fresh → Gains (Point.addedBy source parts) before after
  exact passes.addUp along (fun still _ => Gains.of_still still) more across fresh

namespace Point

private theorem added_of_opened {point : Point} {collector : Nat}
    (opens : point.opened? = some collector) (other : Nat) : point.activity.added other = [] := by
  obtain ⟨room, activity, machine⟩ := point
  cases activity with
  | collection builder span => rfl
  | _ => cases opens

private theorem addedBy_singleton (source : String) (part : Point) :
    addedBy source [part] = fun collector => part.added source collector := by
  funext collector
  exact List.append_nil _

/-- An evaluation leaves the collectors open that it has found open. Each of them has at its end, in
order, what the points within have added to it. -/
theorem gains (source : String) (point : Point) (fresh : point.machine.Fresh) :
    Gains (fun collector => point.added source collector) point.machine (point.after source) := by
  induction point using parts_induction source with
  | step point ih =>
    have addsNothing : (∀ collector, point.activity.added collector = []) →
        Gains (addedBy source (point.parts source)) point.machine (point.after source) →
        Gains (fun collector => point.added source collector) point.machine (point.after source) := by
      intro nothing gains
      have same : (fun collector => point.added source collector) =
          addedBy source (point.parts source) := by
        funext collector
        rw [added_eq, nothing, List.nil_append]
      rwa [same]
    cases passage source point with
    | @enters left request machine part running parts failure after =>
      have inner := ih part (by rw [parts]; exact List.mem_cons_self) (by rw [running]; exact fresh)
      refine addsNothing (fun _ => rfl) ?_
      rw [parts, addedBy_singleton, after]
      rw [running] at inner ⊢
      exact ⟨inner.collectors, inner.next⟩
    | @collects point part opens room inside parts failure after =>
      have inner := ih part (by rw [parts]; exact List.mem_cons_self)
        (by rw [inside]; exact Machine.fresh_collecting fresh)
      refine addsNothing (added_of_opened opens) ?_
      rw [parts, addedBy_singleton, after]
      rw [inside] at inner
      exact Machine.closing_gains fresh inner
    | adds opens parts failure after =>
      have same : (fun collector => point.added source collector) =
          fun collector => point.activity.added collector := by
        funext collector
        rw [added_eq, parts]
        exact List.append_nil _
      rw [same, after]
      exact ⟨rfl, Nat.le_refl _⟩
    | through opens rooms adds passes =>
      exact addsNothing adds (passes.gains ih fresh)

theorem openIds_after {point : Point} (fresh : point.machine.Fresh) :
    (point.after source).openIds = point.machine.openIds := (gains source point fresh).openIds_eq

/-- The parts of a point start with the collectors open that the point has found open, or with these and
the one that the point opens. -/
theorem openIds_of_mem_parts {whole part : Point} (fresh : whole.machine.Fresh)
    (member : part ∈ whole.parts source) :
    part.machine.Fresh ∧ part.machine.openIds = whole.opened?.toList ++ whole.machine.openIds := by
  cases passage source whole with
  | @enters left request machine inner running parts failure after =>
    rw [parts] at member
    cases List.mem_singleton.mp member
    rw [running]
    exact ⟨fresh, rfl⟩
  | collects opens room inside parts failure after =>
    rw [parts] at member
    cases List.mem_singleton.mp member
    rw [inside, opens]
    exact ⟨Machine.fresh_collecting fresh, rfl⟩
  | adds opens parts failure after =>
    rw [parts] at member
    cases member
  | through opens rooms adds passes =>
    have across : ∀ part ∈ whole.parts source, part.machine.Keeps (part.after source) :=
      fun part _ still => ⟨(gains source part still).fresh still, openIds_after still⟩
    have kept := (passes.related Machine.Still.keeps Machine.Keeps.trans across).2 part member fresh
    rw [opens]
    exact kept

/-- The collectors that are opened at the points within a point, in order. -/
def opened (source : String) (point : Point) : List Nat :=
  (point.points source).filterMap opened?

theorem opened_eq (source : String) (point : Point) :
    point.opened source =
      point.opened?.toList ++ (point.parts source).flatMap (opened source) := by
  have within : (point.inner source).filterMap opened? =
      (point.parts source).flatMap (opened source) := by
    rw [inner, List.filterMap_flatMap]
    rfl
  rw [opened, points_eq, List.filterMap_cons, within]
  cases point.opened? <;> rfl

end Point

/-- Ascending numbers from `low` on and below `high`. -/
structure Ascends (low : Nat) (numbers : List Nat) (high : Nat) : Prop where
  order : numbers.Pairwise (· < ·)
  above : ∀ number ∈ numbers, low ≤ number
  below : ∀ number ∈ numbers, number < high
  le : low ≤ high

namespace Ascends

theorem nil {low high : Nat} (le : low ≤ high) : Ascends low [] high :=
  ⟨.nil, fun _ member => (nomatch member), fun _ member => (nomatch member), le⟩

theorem append {low middle high : Nat} {first second : List Nat} (one : Ascends low first middle)
    (two : Ascends middle second high) : Ascends low (first ++ second) high := by
  refine ⟨List.pairwise_append.mpr ⟨one.order, two.order, ?_⟩, ?_, ?_, Nat.le_trans one.le two.le⟩
  · intro a left b right
    exact Nat.lt_of_lt_of_le (one.below a left) (two.above b right)
  · intro number member
    rcases List.mem_append.mp member with left | right
    · exact one.above number left
    · exact Nat.le_trans one.le (two.above number right)
  · intro number member
    rcases List.mem_append.mp member with left | right
    · exact Nat.lt_of_lt_of_le (one.below number left) two.le
    · exact two.below number right

theorem cons {low high : Nat} {rest : List Nat} (others : Ascends (low + 1) rest high) :
    Ascends low (low :: rest) high := by
  have first : Ascends low [low] (low + 1) :=
    ⟨List.pairwise_singleton _ _, by simp, by simp, Nat.le_succ low⟩
  exact first.append others

end Ascends

theorem Passes.ascends {before after : Machine} {parts : List Point} {failure : Option RuntimeError}
    (passes : Passes source before parts failure after)
    (across : ∀ part ∈ parts,
      Ascends part.machine.next (part.opened source) (part.after source).next) :
    Ascends before.next (parts.flatMap (Point.opened source)) after.next := by
  have more : ∀ {before after : Machine} {part : Point} {rest : List Point},
      before.Still part.machine →
      Ascends part.machine.next (part.opened source) (part.after source).next →
      Ascends (part.after source).next (rest.flatMap (Point.opened source)) after.next →
      Ascends before.next ((part :: rest).flatMap (Point.opened source)) after.next :=
    fun still first others => (Ascends.nil still.next).append (first.append others)
  let along (before : Machine) (parts : List Point) (after : Machine) : Prop :=
    Ascends before.next (parts.flatMap (Point.opened source)) after.next
  exact passes.addUp along (fun still => .nil still.next) more across

namespace Point

theorem ascends_opened (source : String) (point : Point) :
    Ascends point.machine.next (point.opened source) (point.after source).next := by
  induction point using parts_induction source with
  | step point ih =>
    rw [opened_eq]
    cases passage source point with
    | @enters left request machine part running parts failure after =>
      have inner := ih part (by rw [parts]; exact List.mem_cons_self)
      rw [running] at inner
      rw [parts, after, running]
      exact inner.append (.nil (Nat.le_refl _))
    | @collects point part opens room inside parts failure after =>
      have inner := ih part (by rw [parts]; exact List.mem_cons_self)
      rw [inside] at inner
      rw [opens, parts, after]
      exact .cons (inner.append (.nil (Nat.le_refl _)))
    | adds opens parts failure after =>
      rw [opens, parts, after]
      exact .nil (Nat.le_refl _)
    | through opens rooms adds passes =>
      rw [opens]
      exact passes.ascends ih

/-- The container of the collector is being built at the point: the point lies within the container's. -/
def Builds (source : String) (start : Point) (collector : Nat) (point : Point) : Prop :=
  ∃ container ∈ start.points source,
    container.opened? = some collector ∧ point ∈ container.inner source

theorem fresh_of_mem_points {start point : Point} (fresh : start.machine.Fresh)
    (within : point ∈ start.points source) : point.machine.Fresh := by
  have step : ∀ whole : Point, whole.machine.Fresh → ∀ part ∈ whole.parts source, part.machine.Fresh :=
    fun _ still _ member => (openIds_of_mem_parts still member).1
  exact inherited step fresh within

theorem openIds_subset {start point : Point} (fresh : start.machine.Fresh)
    (within : point ∈ start.points source) {collector : Nat}
    (isOpen : collector ∈ start.machine.openIds) : collector ∈ point.machine.openIds := by
  have step : ∀ whole : Point, whole.machine.Fresh ∧ collector ∈ whole.machine.openIds →
      ∀ part ∈ whole.parts source, part.machine.Fresh ∧ collector ∈ part.machine.openIds := by
    rintro whole ⟨still, found⟩ part member
    obtain ⟨after, same⟩ := openIds_of_mem_parts still member
    refine ⟨after, ?_⟩
    rw [same]
    exact List.mem_append_right _ found
  exact (inherited step ⟨fresh, isOpen⟩ within).2

/-- A collector is open at a point if it was open at the start, or if its container is being built. -/
theorem mem_openIds_iff {start point : Point} (fresh : start.machine.Fresh)
    (within : point ∈ start.points source) {collector : Nat} :
    collector ∈ point.machine.openIds ↔
      collector ∈ start.machine.openIds ∨ Builds source start collector point := by
  constructor
  · intro isOpen
    induction start using parts_induction source with
    | step start ih =>
      rcases mem_points.mp within with rfl | inner
      · exact .inl isOpen
      · obtain ⟨part, member, inside⟩ := mem_inner.mp inner
        obtain ⟨still, same⟩ := openIds_of_mem_parts fresh member
        rcases ih part member still inside with found | ⟨container, among, opens, holds⟩
        · rw [same] at found
          rcases List.mem_append.mp found with own | before
          · exact .inr ⟨start, mem_points_self source start, Option.mem_toList.mp own, inner⟩
          · exact .inl before
        · exact .inr ⟨container, mem_points_of_part member among, opens, holds⟩
  · rintro (found | ⟨container, among, opens, inner⟩)
    · exact openIds_subset fresh within found
    · obtain ⟨part, member, inside⟩ := mem_inner.mp inner
      obtain ⟨still, same⟩ := openIds_of_mem_parts (fresh_of_mem_points fresh among) member
      refine openIds_subset still inside ?_
      rw [same, opens]
      exact List.mem_append_left _ (List.mem_singleton.mpr rfl)

end Point

end ScreenStudio.Evaluation
