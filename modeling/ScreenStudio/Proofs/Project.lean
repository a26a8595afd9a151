/- digest: Snapshots whose screens, active screen and companion texts belong together. -/

import ScreenStudio.History
import ScreenStudio.Proofs.Dictionary

set_option autoImplicit false
set_option relaxedAutoImplicit false

namespace ScreenStudio

namespace Project

/-- The identifiers of the screens in order. -/
def ids (project : Project) : List String := project.screens.map Screen.id

theorem hasUniqueIds_iff {project : Project} : project.hasUniqueIds = true ↔ project.ids.Nodup :=
  decide_eq_true_iff

theorem mem_ids_iff {project : Project} {id : String} :
    id ∈ project.ids ↔ ∃ screen, project.screen? id = some screen := by
  unfold ids screen?
  constructor
  · intro member
    obtain ⟨screen, inside, same⟩ := List.mem_map.mp member
    refine Option.isSome_iff_exists.mp (List.find?_isSome.mpr ⟨screen, inside, ?_⟩)
    exact beq_iff_eq.mpr same
  · rintro ⟨screen, found⟩
    have same : screen.id = id := by simpa using List.find?_some found
    exact List.mem_map.mpr ⟨screen, List.mem_of_find?_eq_some found, same⟩

theorem ids_add (project : Project) (screen : Screen) :
    (project.add screen).ids = project.ids ++ [screen.id] := List.map_append

theorem ids_remove (project : Project) (id : String) :
    (project.remove id).ids = project.ids.erase id := by
  unfold ids remove
  rw [List.erase_eq_eraseP]
  have same : (fun screen : Screen => screen.id == id) = (fun other => id == other) ∘ Screen.id := by
    funext screen
    exact Bool.beq_comm
  dsimp only
  rw [same, List.eraseP_map]

private theorem ids_replaceSource (id source : String) (screens : List Screen) :
    (replaceSource id source screens).map Screen.id = screens.map Screen.id := by
  induction screens with
  | nil => rfl
  | cons screen rest ih =>
    unfold replaceSource
    split
    · rfl
    · rw [List.map_cons, List.map_cons, ih]

theorem ids_setSource (project : Project) (id source : String) :
    (project.setSource id source).ids = project.ids := ids_replaceSource id source project.screens

end Project

namespace Snapshot

/-- The identifiers are unique, the active screen and the companion texts are those of screens of the
project, and the companion texts are a dictionary. -/
structure Sound (snapshot : Snapshot) : Prop where
  unique : snapshot.project.ids.Nodup
  inactive : snapshot.active = none ↔ snapshot.project.screens = []
  active : ∀ id, snapshot.active = some id → id ∈ snapshot.project.ids
  files : ∀ entry ∈ snapshot.project.files, ∃ id ∈ snapshot.project.ids, entry.1 = companionKey id
  ascending : Dictionary.Ascending snapshot.project.files

variable {project : Project} {state : Json} {active : Option String}

private theorem mem_ids_remove {project : Project} (unique : project.ids.Nodup) {id other : String} :
    other ∈ (project.remove id).ids ↔ other ≠ id ∧ other ∈ project.ids := by
  rw [Project.ids_remove]
  exact List.Nodup.mem_erase_iff unique

private theorem screens_ne_nil {project : Project} {id : String} (member : id ∈ project.ids) :
    project.screens ≠ [] := by
  intro empty
  rw [Project.ids, empty] at member
  cases member

theorem sound_initial (state : Json) (now : UInt64) :
    Sound ⟨Project.initial now, state, some Screen.initialId⟩ where
  unique := List.pairwise_singleton _ _
  inactive := ⟨fun none => (nomatch none), fun empty => (nomatch empty)⟩
  active := by
    intro id equal
    cases equal
    exact List.mem_singleton_self _
  files := by
    intro entry member
    cases member
  ascending := Dictionary.ascending_nil

theorem Sound.of_same {before after : Snapshot} (sound : before.Sound)
    (project : after.project = before.project) (active : after.active = before.active) :
    after.Sound := by
  obtain ⟨afterProject, _, afterActive⟩ := after
  cases project
  cases active
  exact ⟨sound.unique, sound.inactive, sound.active, sound.files, sound.ascending⟩

theorem Sound.select (sound : Sound ⟨project, state, active⟩) {id : String}
    (member : id ∈ project.ids) : Sound ⟨project, state, some id⟩ where
  unique := sound.unique
  inactive := ⟨fun none => (nomatch none), fun empty => absurd empty (screens_ne_nil member)⟩
  active := by
    intro other equal
    cases equal
    exact member
  files := sound.files
  ascending := sound.ascending

theorem Sound.add (sound : Sound ⟨project, state, active⟩) {screen : Screen}
    (fresh : screen.id ∉ project.ids) :
    Sound ⟨project.add screen, state, some screen.id⟩ where
  unique := by
    show (project.add screen).ids.Nodup
    rw [Project.ids_add]
    refine List.nodup_append.mpr ⟨sound.unique, List.pairwise_singleton _ _, ?_⟩
    intro other old new added equal
    rw [List.mem_singleton.mp added] at equal
    rw [equal] at old
    exact fresh old
  inactive := ⟨fun none => (nomatch none), fun empty => absurd empty (by simp [Project.add])⟩
  active := by
    intro other equal
    cases equal
    rw [Project.ids_add]
    exact List.mem_append_right _ (List.mem_singleton_self _)
  files := by
    intro entry member
    obtain ⟨id, inside, key⟩ := sound.files entry member
    refine ⟨id, ?_, key⟩
    rw [Project.ids_add]
    exact List.mem_append_left _ inside
  ascending := sound.ascending

theorem Sound.remove (sound : Sound ⟨project, state, active⟩) {id : String}
    (member : id ∈ project.ids) :
    Sound ⟨project.remove id, state,
      if active = some id then ((project.remove id).screens.head?).map Screen.id else active⟩ where
  unique := by
    show (project.remove id).ids.Nodup
    rw [Project.ids_remove]
    exact List.Nodup.erase id sound.unique
  inactive := by
    dsimp only
    split
    · cases (project.remove id).screens <;> simp
    · rename_i other
      cases active with
      | none => exact absurd (sound.inactive.mp rfl) (screens_ne_nil member)
      | some current =>
        have different : current ≠ id := fun equal => other (by rw [equal])
        have left : current ∈ (project.remove id).ids :=
          (mem_ids_remove sound.unique).mpr ⟨different, sound.active current rfl⟩
        exact ⟨fun none => (nomatch none), fun empty => absurd empty (screens_ne_nil left)⟩
  active := by
    intro other equal
    dsimp only at equal
    split at equal
    · obtain ⟨screen, first, same⟩ := Option.map_eq_some_iff.mp equal
      rw [← same]
      exact List.mem_map_of_mem (List.mem_of_head? first)
    · rename_i different
      refine (mem_ids_remove sound.unique).mpr ⟨?_, sound.active other equal⟩
      rintro rfl
      exact different equal
  files := by
    intro entry left
    have key := Dictionary.ne_of_mem_erase sound.ascending left
    obtain ⟨other, inside, same⟩ := sound.files entry (Dictionary.mem_of_mem_erase left)
    refine ⟨other, (mem_ids_remove sound.unique).mpr ⟨?_, inside⟩, same⟩
    rintro rfl
    exact key same
  ascending := Dictionary.ascending_erase sound.ascending

theorem Sound.setSource (sound : Sound ⟨project, state, active⟩) (id source : String) :
    Sound ⟨project.setSource id source, state, active⟩ := by
  have ids := Project.ids_setSource project id source
  have screens : (project.setSource id source).screens = [] ↔ project.screens = [] := by
    rw [← List.map_eq_nil_iff (f := Screen.id), ← List.map_eq_nil_iff (f := Screen.id)]
    exact iff_of_eq (congrArg (fun list => list = []) ids)
  refine ⟨?_, sound.inactive.trans screens.symm, ?_, ?_, sound.ascending⟩
  · show (project.setSource id source).ids.Nodup
    rw [ids]
    exact sound.unique
  · show ∀ other, active = some other → other ∈ (project.setSource id source).ids
    rw [ids]
    exact sound.active
  · show ∀ entry ∈ project.files, ∃ other ∈ (project.setSource id source).ids, _
    rw [ids]
    exact sound.files

theorem Sound.setCompanion (sound : Sound ⟨project, state, active⟩) {id : String}
    (member : id ∈ project.ids) (content : String) :
    Sound ⟨project.setCompanion id content, state, active⟩ where
  unique := sound.unique
  inactive := sound.inactive
  active := sound.active
  files := by
    intro entry inside
    rcases Dictionary.mem_of_mem_insert inside with rfl | old
    · exact ⟨id, member, rfl⟩
    · exact sound.files entry old
  ascending := Dictionary.ascending_insert sound.ascending

end Snapshot

end ScreenStudio
