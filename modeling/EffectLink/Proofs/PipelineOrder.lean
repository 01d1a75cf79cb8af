import EffectLink.Proofs.UniformOffsets
import Mathlib.Data.List.Nodup
import Mathlib.Logic.Function.Iterate

namespace EffectLink

theorem Stage.index_injective {s t : Stage} (h : s.index = t.index) : s = t := by
  revert h
  cases s <;> cases t <;> decide

section FirstOfEach

variable {α : Type} {name : α → String}

/-- An item is kept if its name is new and nothing before it has the name. -/
theorem mem_firstOfEach {earlier : List String} {items : List α} {item : α} :
    item ∈ firstOfEach name earlier items ↔
      name item ∉ earlier ∧ items.find? (name · == name item) = some item := by
  fun_induction firstOfEach name earlier items with
  | case1 => simp
  | case2 earlier first rest hseen ih =>
    rw [ih]
    apply and_congr_right
    intro hitem
    -- the name of the first item has been seen, that of the other has not
    have hne : (name first == name item) = false := by
      apply beq_eq_false_iff_ne.mpr
      intro heq
      apply hitem
      rw [← heq]
      exact List.contains_iff_mem.mp hseen
    rw [List.find?_cons, hne]
  | case3 earlier first rest hnew ih =>
    have hfirst : name first ∉ earlier := fun hmem => hnew (List.contains_iff_mem.mpr hmem)
    rw [List.mem_cons, ih, List.find?_cons]
    by_cases heq : name first = name item
    · simp only [heq, beq_self_eq_true, List.mem_cons, true_or, not_true_eq_false, false_and, or_false,
        Option.some.injEq]
      constructor
      · intro h
        subst h
        exact ⟨hfirst, rfl⟩
      · intro h
        exact h.2.symm
    · have hitem : item ≠ first := fun h => heq (congrArg name h.symm)
      have hne : (name first == name item) = false := beq_eq_false_iff_ne.mpr heq
      rw [hne]
      simp [hitem, Ne.symm heq]

theorem mem_firstOfEach_id {names : List String} {n : String} :
    n ∈ firstOfEach id [] names ↔ n ∈ names := by
  rw [mem_firstOfEach]
  constructor
  · intro h
    exact List.mem_of_find?_eq_some h.2
  · intro h
    refine ⟨List.not_mem_nil, ?_⟩
    cases hfound : names.find? (id · == id n) with
    | none =>
      have hno := List.find?_eq_none.mp hfound n h
      simp at hno
    | some other =>
      have hother : other = n := by simpa using List.find?_some hfound
      rw [hother]

theorem nodup_firstOfEach (earlier : List String) (items : List α) :
    ((firstOfEach name earlier items).map name).Nodup := by
  fun_induction firstOfEach name earlier items with
  | case1 => exact List.nodup_nil
  | case2 earlier first rest hseen ih => exact ih
  | case3 earlier first rest hnew ih =>
    rw [List.map_cons]
    apply List.nodup_cons.mpr
    refine ⟨?_, ih⟩
    intro hmem
    obtain ⟨item, hitem, heq⟩ := List.mem_map.mp hmem
    -- from here on the name counts as seen
    have hunseen := (mem_firstOfEach.mp hitem).1
    apply hunseen
    rw [heq]
    exact List.mem_cons_self

end FirstOfEach

/-- The units of the stages in pipeline order, one for each stage that has any. -/
def pipeline (units : List StageUnit) : List StageUnit :=
  Stage.all.filterMap fun stage => units.find? (·.stage == stage)

theorem pairwise_pipeline (units : List StageUnit) :
    (pipeline units).Pairwise fun a b => a.stage.index < b.stage.index := by
  have hstages : Stage.all.Pairwise fun s t => s.index < t.index := by decide
  apply List.pairwise_filterMap.mpr
  refine hstages.imp ?_
  intro s t hlt a ha b hb
  have hs : a.stage = s := by simpa using List.find?_some ha
  have ht : b.stage = t := by simpa using List.find?_some hb
  rw [hs, ht]
  exact hlt

/-- Units of different stages are told apart by their stages. -/
theorem eq_of_stage_eq {units : List StageUnit} (h : (units.map (·.stage)).Nodup) {a b : StageUnit}
    (ha : a ∈ units) (hb : b ∈ units) (hstage : a.stage = b.stage) : a = b :=
  List.inj_on_of_nodup_map h ha hb hstage

theorem mem_pipeline {units : List StageUnit} (h : (units.map (·.stage)).Nodup) {unit : StageUnit} :
    unit ∈ pipeline units ↔ unit ∈ units := by
  unfold pipeline
  rw [List.mem_filterMap]
  constructor
  · intro hmem
    obtain ⟨stage, -, hfound⟩ := hmem
    exact List.mem_of_find?_eq_some hfound
  · intro hmem
    refine ⟨unit.stage, unit.stage.mem_all, ?_⟩
    cases hfound : units.find? (·.stage == unit.stage) with
    | none =>
      have hno := List.find?_eq_none.mp hfound unit hmem
      simp at hno
    | some other =>
      have hother : other.stage = unit.stage := by simpa using List.find?_some hfound
      rw [eq_of_stage_eq h (List.mem_of_find?_eq_some hfound) hmem hother]

theorem pipeline_perm {units : List StageUnit} (h : (units.map (·.stage)).Nodup) :
    (pipeline units).Perm units := by
  have hnodup : (pipeline units).Nodup := by
    refine (pairwise_pipeline units).imp ?_
    intro a b hlt heq
    rw [heq] at hlt
    exact Nat.lt_irrefl _ hlt
  exact (List.perm_ext_iff_of_nodup hnodup (List.Nodup.of_map _ h)).mpr fun _ => mem_pipeline h

namespace ProgramObject

theorem units_link_perm (p : ProgramObject) : p.link.units.Perm p.units := List.mergeSort_perm _ _

theorem pairwise_units_link (p : ProgramObject) :
    p.link.units.Pairwise fun a b => a.stage.index ≤ b.stage.index := by
  have hsorted : p.link.units.Pairwise fun a b => decide (a.stage.index ≤ b.stage.index) = true := by
    apply List.pairwise_mergeSort
    · intro a b c hab hbc
      rw [decide_eq_true_eq] at hab hbc ⊢
      omega
    · intro a b
      rw [Bool.or_eq_true, decide_eq_true_eq, decide_eq_true_eq]
      omega
  simpa only [decide_eq_true_eq] using hsorted

/-- Linking puts units of different stages into pipeline order. -/
theorem units_link {p : ProgramObject} (h : (p.units.map (·.stage)).Nodup) :
    p.link.units = pipeline p.units := by
  refine List.Perm.eq_of_pairwise ?_
    p.pairwise_units_link ((pairwise_pipeline p.units).imp Nat.le_of_lt)
    (p.units_link_perm.trans (pipeline_perm h).symm)
  intro a b ha hb hab hba
  have hstage : a.stage = b.stage := Stage.index_injective (Nat.le_antisymm hab hba)
  exact eq_of_stage_eq h (p.units_link_perm.mem_iff.mp ha) ((mem_pipeline h).mp hb) hstage

/-- There is one way to sort units of different stages. -/
theorem pipeline_of_perm {units units' : List StageUnit} (h : (units.map (·.stage)).Nodup)
    (hperm : units'.Perm units) : pipeline units' = pipeline units := by
  have h' : (units'.map (·.stage)).Nodup := (hperm.map _).nodup_iff.mpr h
  refine List.Perm.eq_of_pairwise ?_ (pairwise_pipeline units') (pairwise_pipeline units)
    ((pipeline_perm h').trans (hperm.trans (pipeline_perm h).symm))
  intro a b _ _ hab hba
  omega

theorem link_assemble {units : List StageUnit} (h : (units.map (·.stage)).Nodup) :
    (assemble units).link = ⟨pipeline units, interfaceFaults (pipeline units), ⟨[], []⟩⟩ := by
  have hunits := units_link (p := assemble units) (by rw [assemble_eq]; exact h)
  rw [assemble_eq] at hunits ⊢
  rw [← hunits]
  rfl

/-- Nothing is left of an earlier reflection. -/
theorem reflect_iterate (p : ProgramObject) (n : Nat) : reflect^[n + 1] p = p.reflect := by
  induction n with
  | zero => rfl
  | succ n ih =>
    rw [Function.iterate_succ_apply', ih]
    rfl

/-- What is listed is a function of the units in their order. -/
theorem blocks_reflect (p : ProgramObject) :
    p.reflect.live.blocks = firstOfEach id [] (p.units.flatMap fun u => u.content.reflect.blocks) := by
  rw [← List.flatMap_map]
  rfl

theorem uniforms_reflect (p : ProgramObject) :
    p.reflect.live.uniforms =
      firstOfEach (·.name) [] (p.units.flatMap fun u => u.content.reflect.uniforms) := by
  rw [← List.flatMap_map]
  rfl

/-- Two orders of adding units of different stages lead to the same answer and the same log of linking
and then, however often reflection is built, to the same blocks, uniforms and binaries. No block and no
uniform is listed twice. A block is listed if some unit uses it; of the uniforms of one name, that one is
listed that comes first in pipeline order. -/
theorem results_independent_of_order {units units' : List StageUnit}
    (hstages : (units.map (·.stage)).Nodup) (horder : units'.Perm units) (m n : Nat) :
    let linked := (assemble units).link
    let linked' := (assemble units').link
    let reflected := reflect^[m + 1] linked
    let reflected' := reflect^[n + 1] linked'
    let uniforms := (pipeline units).flatMap fun u => u.content.reflect.uniforms
    linked'.isLinked = linked.isLinked ∧ linked'.log = linked.log ∧
    reflected'.live.blocks = reflected.live.blocks ∧
    reflected'.live.uniforms = reflected.live.uniforms ∧
    (∀ stage, reflected'.binary stage = reflected.binary stage) ∧
    reflected.live.blocks.Nodup ∧ (reflected.live.uniforms.map (·.name)).Nodup ∧
    (∀ block, block ∈ reflected.live.blocks ↔ ∃ u ∈ units, block ∈ u.content.reflect.blocks) ∧
    reflected.live.uniforms.Sublist uniforms ∧
    ∀ u, u ∈ reflected.live.uniforms ↔ uniforms.find? (·.name == u.name) = some u := by
  intro linked linked' reflected reflected' uniforms
  have hstages' : (units'.map (·.stage)).Nodup := (horder.map _).nodup_iff.mpr hstages
  have hlinked : linked' = linked := by
    dsimp only [linked, linked']
    rw [link_assemble hstages', link_assemble hstages, pipeline_of_perm hstages horder]
  -- reflection begins anew each time, so building it again is building it once
  have hreflected : reflected = linked.reflect := reflect_iterate linked m
  have hreflected' : reflected' = reflected := by
    rw [hreflected, ← hlinked]
    exact reflect_iterate linked' n
  have hunits : linked.units = pipeline units := by
    dsimp only [linked]
    rw [link_assemble hstages]
  rw [hreflected', hlinked, hreflected, blocks_reflect, uniforms_reflect, hunits]
  refine ⟨rfl, rfl, rfl, rfl, fun _ => rfl, ?_, nodup_firstOfEach _ _, ?_, sublist_firstOfEach _ _, ?_⟩
  · rw [← List.map_id (firstOfEach id [] _)]
    exact nodup_firstOfEach _ _
  · intro block
    rw [mem_firstOfEach_id, List.mem_flatMap]
    apply exists_congr
    intro u
    rw [mem_pipeline hstages]
  · intro u
    rw [mem_firstOfEach]
    apply and_iff_right
    exact List.not_mem_nil

end ProgramObject

/-- Two stages that both have a block `Globals`; its member `tint` is shorter in the second. -/
def harborModule : Stage → Module
  | .vertex =>
    { globals := [⟨none, .uniform, some "Globals",
        .struct (.cons "mvp" 0 none (.matrix 4 4 ⟨.float, 4⟩)
          (.cons "tint" 64 none (.vector 4 ⟨.float, 4⟩) .nil)), true⟩]
      entryPoints := [⟨.vertex, [], some (.vector 2 ⟨.float, 4⟩, some (.location 0))⟩]
      binary := .ok [7] }
  | _ =>
    { globals := [⟨none, .uniform, some "Globals",
          .struct (.cons "tint" 0 none (.vector 3 ⟨.float, 4⟩) .nil), true⟩,
        ⟨some "waves", .handle, none, .image .d2 .sampled, true⟩]
      entryPoints := [⟨.pixel, [(.vector 2 ⟨.float, 4⟩, some (.location 0))], none⟩]
      binary := .error "no room" }

def harborUnit (stage : Stage) : StageUnit := ⟨stage, harborModule stage⟩

/-- The longer `tint` is listed even if the stage of the shorter one was added first. -/
theorem harbor_results :
    (ProgramObject.reflect^[3]
      (ProgramObject.assemble [harborUnit .pixel, harborUnit .vertex]).link).live =
      ⟨["Globals"],
        [⟨"mvp", 0x8B5C, some 0⟩, ⟨"tint", 0x8B52, some 64⟩, ⟨"waves", 0x8B5E, none⟩]⟩ := by
  have hstages : ([harborUnit .vertex, harborUnit .pixel].map (·.stage)).Nodup := by decide
  obtain ⟨-, -, hblocks, huniforms, -⟩ :=
    ProgramObject.results_independent_of_order hstages (List.Perm.swap _ _ _) 0 2
  rw [ProgramObject.link_assemble hstages] at hblocks huniforms
  rw [LiveSet.mk.injEq]
  refine ⟨hblocks.trans ?_, huniforms.trans ?_⟩
  · decide
  · decide

end EffectLink
