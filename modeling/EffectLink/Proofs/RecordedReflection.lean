import EffectLink.Proofs.BackendLinking
import EffectLink.Proofs.CollectedRows
import EffectLink.Proofs.TextPieces
import EffectLink.Proofs.ValidatedBatch

namespace EffectLink

/-- The name of an array, followed by a decimal index in brackets. -/
def Indexed (base name : String) : Prop :=
  ∃ digits : List Char, digits ≠ [] ∧ (∀ c ∈ digits, c.isDigit = true) ∧
    name.toList = base.toList ++ '[' :: (digits ++ [']'])

theorem stripIndex_of_indexed {base name : String} (h : Indexed base name) :
    stripIndex name = base := by
  obtain ⟨digits, hne, hdigits, hname⟩ := h
  have hrev : name.toList.reverse = ']' :: (base.toList ++ '[' :: digits).reverse := by
    rw [hname]
    simp
  -- a digit is no bracket, so the last bracket is the one in front of the index
  have hmark : '[' ∉ digits := fun hc => absurd (hdigits _ hc) (by decide)
  unfold stripIndex
  rw [hrev]
  simp only [List.reverse_reverse, Text.splitLast_append hmark]
  rw [if_pos (by simpa [hne] using hdigits)]
  exact String.ofList_toList

theorem indexed_stripIndex (name : String) :
    Indexed (stripIndex name) name ∨ stripIndex name = name := by
  unfold stripIndex
  split
  · next rest hrev =>
    split
    · next base index hsplit =>
      split
      · next hdigits =>
        refine Or.inl ⟨index, ?_, ?_, ?_⟩
        · intro hnil
          simp [hnil] at hdigits
        · simp only [Bool.and_eq_true, List.all_eq_true] at hdigits
          exact hdigits.2
        · have hrest : rest.reverse = base ++ '[' :: index := Text.eq_of_splitLast hsplit
          calc name.toList = rest.reverse ++ [']'] := by
                rw [← List.reverse_reverse name.toList, hrev, List.reverse_cons]
            _ = base ++ '[' :: (index ++ [']']) := by
                rw [hrest, List.append_assoc, List.cons_append]
            _ = (String.ofList base).toList ++ '[' :: (index ++ [']']) := by
                rw [String.toList_ofList]
      · exact Or.inr rfl
    · exact Or.inr rfl
  · exact Or.inr rfl

/-- One index is taken off, and a name without index stays as it is. -/
theorem stripIndex_eq_iff (name base : String) :
    stripIndex name = base ↔
      Indexed base name ∨ base = name ∧ ∀ other, ¬Indexed other name := by
  constructor
  · rintro rfl
    rcases indexed_stripIndex name with hindexed | hsame
    · exact Or.inl hindexed
    · by_cases hother : ∃ other, Indexed other name
      · obtain ⟨other, hother⟩ := hother
        rw [stripIndex_of_indexed hother]
        exact Or.inl hother
      · exact Or.inr ⟨hsame, not_exists.mp hother⟩
  · rintro (hindexed | ⟨rfl, hnone⟩)
    · exact stripIndex_of_indexed hindexed
    · exact (indexed_stripIndex base).resolve_left (hnone _)

/-- A uniform that is data in a block, with its offset there and its name without index. -/
def LiveUniform.RecordedAs (u : LiveUniform) (key : String) (offset : UInt32) : Prop :=
  u.type < resourceTypes ∧ u.offset = some offset ∧ stripIndex u.name = key

instance (u : LiveUniform) (key : String) (offset : UInt32) : Decidable (u.RecordedAs key offset) :=
  inferInstanceAs (Decidable (_ ∧ _ ∧ _))

/-- The offset of the last uniform that is recorded under a name. -/
def LastRecorded (uniforms : List LiveUniform) (key : String) (offset : UInt32) : Prop :=
  ∃ before u after, uniforms = before ++ u :: after ∧ u.RecordedAs key offset ∧
    ∀ later ∈ after, ∀ other, ¬later.RecordedAs key other

theorem lastRecorded_cons {u : LiveUniform} {uniforms : List LiveUniform} {key : String}
    {offset : UInt32} :
    LastRecorded (u :: uniforms) key offset ↔
      LastRecorded uniforms key offset ∨
      u.RecordedAs key offset ∧ ∀ later ∈ uniforms, ∀ other, ¬later.RecordedAs key other := by
  constructor
  · rintro ⟨before, v, after, heq, hv, hafter⟩
    cases before with
    | nil =>
      cases heq
      exact Or.inr ⟨hv, hafter⟩
    | cons first before =>
      cases heq
      exact Or.inl ⟨before, v, after, rfl, hv, hafter⟩
  · rintro (⟨before, v, after, rfl, hv, hafter⟩ | ⟨hu, hnone⟩)
    · exact ⟨u :: before, v, after, rfl, hv, hafter⟩
    · exact ⟨[], u, uniforms, rfl, hu, hnone⟩

/-- Where a uniform is recorded, some uniform is the last one. -/
theorem exists_lastRecorded {uniforms : List LiveUniform} {key : String} :
    (∃ offset, LastRecorded uniforms key offset) ↔
      ∃ u ∈ uniforms, ∃ offset, u.RecordedAs key offset := by
  constructor
  · rintro ⟨offset, before, u, after, rfl, hu, -⟩
    exact ⟨u, List.mem_append_right _ List.mem_cons_self, offset, hu⟩
  · intro h
    induction uniforms with
    | nil =>
      obtain ⟨u, hu, -⟩ := h
      exact absurd hu List.not_mem_nil
    | cons u uniforms ih =>
      by_cases hlater : ∃ v ∈ uniforms, ∃ offset, v.RecordedAs key offset
      · obtain ⟨offset, hlast⟩ := ih hlater
        exact ⟨offset, lastRecorded_cons.mpr (Or.inl hlast)⟩
      · obtain ⟨v, hv, offset, hrecorded⟩ := h
        rcases List.mem_cons.mp hv with rfl | hv
        · refine ⟨offset, lastRecorded_cons.mpr (Or.inr ⟨hrecorded, ?_⟩)⟩
          intro later hmem other hother
          exact hlater ⟨later, hmem, other, hother⟩
        · exact absurd ⟨v, hv, offset, hrecorded⟩ hlater

namespace Reflection

/-- One uniform changes the offset under its own name, and only if it is data in a block. -/
theorem offsets_addUniform (r : Reflection) (u : LiveUniform) (key : String) (offset : UInt32) :
    (r.addUniform u).offsets.get? key = some offset ↔
      u.RecordedAs key offset ∨
      r.offsets.get? key = some offset ∧ ∀ other, ¬u.RecordedAs key other := by
  unfold addUniform LiveUniform.RecordedAs
  cases hoffset : u.offset with
  | none => simp
  | some place =>
    dsimp only
    by_cases htype : u.type < resourceTypes
    · rw [if_pos htype, KeyMap.get?_insert]
      by_cases hkey : key = stripIndex u.name
      · simp [htype, hkey]
      · simp [htype, hkey, Ne.symm hkey]
    · rw [if_neg htype]
      simp [htype]

/-- A pass over the uniforms leaves the last offset under each name, and what was there before where
nothing is recorded. -/
theorem offsets_foldl_addUniform (uniforms : List LiveUniform) (r : Reflection) (key : String)
    (offset : UInt32) :
    (uniforms.foldl addUniform r).offsets.get? key = some offset ↔
      LastRecorded uniforms key offset ∨
      r.offsets.get? key = some offset ∧ ∀ u ∈ uniforms, ∀ other, ¬u.RecordedAs key other := by
  induction uniforms generalizing r with
  | nil =>
    have hnone : ¬LastRecorded [] key offset := by
      rintro ⟨before, u, after, heq, -⟩
      simp at heq
    simp [hnone]
  | cons u uniforms ih =>
    rw [List.foldl_cons, ih, offsets_addUniform, lastRecorded_cons, List.forall_mem_cons,
      or_and_right, and_assoc, or_assoc]

/-- What a program without live data records of a live set. -/
theorem get?_addLive_empty (live : LiveSet) (key : String) (offset : UInt32) :
    (empty.addLive live).offsets.get? key = some offset ↔
      LastRecorded live.uniforms key offset := by
  unfold addLive
  rw [offsets_foldl_addUniform]
  apply or_iff_left
  rintro ⟨hbefore, -⟩
  cases hbefore

end Reflection

namespace Program

variable {U : Type} {p : Program}

/-- The phases in front of backend linking, in any order: a declaration is collected, and the program is
validated and given its shaders. -/
inductive Fresh : Program → Prop
  | collected (decl : ProgramDecl) : Fresh (ofDecl decl)
  | validated {p : Program} (h : Fresh p) (symbols : SymbolTable) (options : LinkOptions) :
    Fresh (p.validate symbols options).program
  | resolved {p : Program} (h : Fresh p) (symbols : SymbolTable) (header : Header) (pool : Pool) :
    Fresh (p.resolve symbols header pool).program

theorem reflection_resolveStage (symbols : SymbolTable) (header : Header) (r : Resolved)
    (stage : Stage) :
    (resolveStage symbols header r stage).program.reflection = r.program.reflection := by
  unfold resolveStage
  split
  · rfl
  · split <;> rfl

theorem reflection_resolve (p : Program) (symbols : SymbolTable) (header : Header) (pool : Pool) :
    (p.resolve symbols header pool).program.reflection = p.reflection := by
  have hrun (stages : List Stage) (r : Resolved) :
      (stages.foldl (resolveStage symbols header) r).program.reflection = r.program.reflection := by
    induction stages generalizing r with
    | nil => rfl
    | cons stage stages ih => rw [List.foldl_cons, ih, reflection_resolveStage]
  exact hrun Stage.all ⟨p, pool, [], true⟩

/-- Nothing is live before linking. -/
theorem Fresh.reflection (h : p.Fresh) : p.reflection = .empty := by
  induction h with
  | collected decl => exact (kept_ofDecl decl).2.2.2
  | @validated p _ symbols options ih =>
    have hprogram : ∃ size, (p.validate symbols options).program = { p with patchSize := size } :=
      validate_program
    obtain ⟨size, hsize⟩ := hprogram
    rw [hsize, ih]
  | resolved _ symbols header pool ih => rw [reflection_resolve, ih]

/-- Every populated stage has a shader that compiled. -/
def Furnished (units : List (Option U)) (p : Program) : Prop :=
  ∀ stage slot, p.slot stage = some slot → ∃ unit, unitAt units slot = some (some unit)

/-- The search for units succeeds if and only if every populated stage has one. -/
theorem stageUnits_iff {units : List (Option U)} :
    p.stageUnits units Stage.all = .ok (p.foundUnits units Stage.all) ↔ p.Furnished units := by
  constructor
  · intro h stage slot hslot
    exact unitAt_of_stageUnits h stage.mem_all hslot
  · intro h
    have hall (stages : List Stage) : ∃ found, p.stageUnits units stages = .ok found := by
      induction stages with
      | nil => exact ⟨[], rfl⟩
      | cons stage rest ih =>
        obtain ⟨found, hfound⟩ := ih
        rcases p.stageUnits_cases units stage rest with ⟨-, hnext⟩ | ⟨slot, hslot, hcases⟩
        · exact ⟨found, hnext.trans hfound⟩
        · obtain ⟨unit, hunit⟩ := h stage slot hslot
          rcases hcases with ⟨other, -, hnext⟩ | ⟨hnone, -⟩ | ⟨hnone, -⟩
          · rw [hfound] at hnext
            exact ⟨(stage, other) :: found, hnext⟩
          · simp [hunit] at hnone
          · simp [hunit] at hnone
    obtain ⟨found, hfound⟩ := hall Stage.all
    rw [hfound, (stageUnits_ok hfound).1]

/-- Without a unit for each stage, or if the backend refuses them, the program is given up as it was. -/
theorem linkAndReflect_refused {backend : Backend U} {units : List (Option U)} (binaries : Bool)
    (h : ¬p.Furnished units ∨
      (∃ log, backend.link p.name (p.foundUnits units Stage.all) = .error log) ∨
      ∃ log, backend.reflect p.name (p.foundUnits units Stage.all) = .error log) :
    (p.linkAndReflect backend units binaries).ok = false ∧
    (p.linkAndReflect backend units binaries).program = p := by
  rcases p.linkAndReflect_cases backend units binaries with
    ⟨faults, calls, -, hr⟩ | ⟨code, message, log, calls, -, hr⟩ |
      ⟨found, live, -, hunits, hlink, hreflect, -⟩
  · rw [hr]
    exact ⟨rfl, rfl⟩
  · rw [hr]
    exact ⟨rfl, rfl⟩
  -- the backend took the units, against the assumption
  · exfalso
    obtain rfl := (stageUnits_ok hunits).1
    rcases h with hmissing | ⟨log, hlog⟩ | ⟨log, hlog⟩
    · exact hmissing (stageUnits_iff.mp hunits)
    · rw [hlink] at hlog
      cases hlog
    · rw [hreflect] at hlog
      cases hlog

/-- For a target that links stages: once the backend has linked and reflected the units of a program,
its live names are recorded in its order, and each name without index has the offset of the last uniform
in a block that goes by it. If a unit is missing or the backend refuses, nothing is recorded. -/
theorem linkWith_records_live (p : Program) (hfresh : p.Fresh) (backend : Backend U)
    (units : List (Option U)) (header : Header)
    (hneeds : (Strategy.ofHeader header).needsUnits = true) :
    let linked := p.linkWith backend units header
    let found := p.foundUnits units Stage.all
    (p.Furnished units → backend.link p.name found = .ok () →
      ∀ live, backend.reflect p.name found = .ok live →
        linked.program.reflection.blocks = live.blocks ∧
        linked.program.reflection.uniforms = live.uniforms.map (·.name) ∧
        (∀ key, (linked.program.reflection.offsets.get? key).isSome = true ↔
          ∃ u ∈ live.uniforms, ∃ offset, u.RecordedAs key offset) ∧
        ∀ key offset, linked.program.reflection.offsets.get? key = some offset ↔
          LastRecorded live.uniforms key offset) ∧
    (∀ name base, stripIndex name = base ↔
      Indexed base name ∨ base = name ∧ ∀ other, ¬Indexed other name) ∧
    (¬p.Furnished units ∨ (∃ log, backend.link p.name found = .error log) ∨
        (∃ log, backend.reflect p.name found = .error log) →
      linked.ok = false ∧ linked.program = p) := by
  -- whether binaries are asked for makes no difference to what is recorded
  obtain ⟨binaries, hlinked⟩ : ∃ binaries,
      p.linkWith backend units header = p.linkAndReflect backend units binaries := by
    rcases p.linkWith_cases backend units header with ⟨-, hr⟩ | ⟨hnone, -⟩
    · exact hr
    · rw [hnone] at hneeds
      contradiction
  intro linked found
  refine ⟨?_, stripIndex_eq_iff, ?_⟩
  · intro hunits hlink live hreflect
    have hrecorded : linked.program.reflection = Reflection.empty.addLive live := by
      rw [← hfresh.reflection]
      dsimp only [linked]
      rw [hlinked]
      exact reflection_of_live (stageUnits_iff.mpr hunits) hlink hreflect binaries
    rw [hrecorded]
    have hoffsets := Reflection.get?_addLive_empty live
    refine ⟨?_, ?_, ?_, hoffsets⟩
    · rw [Reflection.addLive_empty]
      rfl
    · rw [Reflection.addLive_empty]
      rfl
    · intro key
      rw [Option.isSome_iff_exists, ← exists_lastRecorded]
      exact exists_congr fun offset => hoffsets key offset
  · intro hrefused
    dsimp only [linked]
    rw [hlinked]
    exact linkAndReflect_refused binaries hrefused

def clearing : Location := ⟨"glade.fx", 4⟩

def gladeShader (name : String) : Function :=
  { name, location := clearing, returnType := .builtin .void, parameters := [], isShader := true,
    attributes := .none, code := "void main() { }" }

def gladeDecl : ProgramDecl :=
  { name := "Glade", location := clearing
    rows := [⟨"PixelShader", "PSGlade", ∅, clearing⟩, ⟨"VertexShader", "VSGlade", ∅, clearing⟩]
    annotation := none }

def portable : Header := ⟨.spirv, 1, 0, .none⟩

def glade : Program :=
  ((ofDecl gladeDecl).resolve
    ⟨[.function (gladeShader "VSGlade"), .function (gladeShader "PSGlade")]⟩ portable .empty).program

/-- Two elements of one array, a name with two indices, and a sampler under the name of the array. -/
def gladeLive : LiveSet :=
  { blocks := ["Night", "Swarm"]
    uniforms := [⟨"fireflies[0]", 0x8B52, some 16⟩, ⟨"fireflies[7]", 0x8B52, some 128⟩,
      ⟨"grid[1][2]", 0x1406, some 32⟩, ⟨"fireflies[x]", 0x1406, some 48⟩,
      ⟨"fireflies", 0x8B5E, some 0⟩, ⟨"moon[0]", 0x1406, none⟩] }

/-- Links any stages, lists the same live data for all of them, and has no binary for pixels. -/
def gladeBackend : Backend Stage :=
  { name := "glade"
    acquire := .ok ()
    compile := fun _ _ stage _ => .ok stage
    link := fun _ _ => .ok ()
    reflect := fun _ _ => .ok gladeLive
    binary := fun _ _ stage => if stage = .pixel then .error "too dark" else .ok [1] }

/-- The program after linking with a unit for each stage. -/
def gladeLinked : BackendLinked :=
  glade.linkWith gladeBackend [some .vertex, some .pixel] portable

theorem furnished_glade : glade.Furnished [some Stage.vertex, some .pixel] := by
  intro stage slot hslot
  have hall : ∀ stage, ((glade.slot stage).all fun slot =>
      (unitAt [some Stage.vertex, some .pixel] slot).join.isSome) = true := by decide +kernel
  have hslot' := hall stage
  rw [hslot] at hslot'
  obtain ⟨unit, hunit⟩ := Option.isSome_iff_exists.mp hslot'
  exact ⟨unit, Option.join_eq_some_iff.mp hunit⟩

theorem not_furnished_glade : ¬glade.Furnished [some Stage.vertex, none] := by
  intro hall
  have hpixel : (glade.slot .pixel).isSome = true := by decide +kernel
  obtain ⟨slot, hslot⟩ := Option.isSome_iff_exists.mp hpixel
  obtain ⟨unit, hunit⟩ := hall .pixel slot hslot
  have hnone : ((glade.slot .pixel).map (unitAt [some Stage.vertex, none])) = some (some none) := by
    decide +kernel
  rw [hslot, Option.map_some, hunit] at hnone
  cases hnone

/-- The last element decides for the array, although the pixel stage gets no binary and the program is
given up. A shader that did not compile leaves the program as it was. -/
theorem linkWith_records_live_glade :
    glade.Fresh ∧ (Strategy.ofHeader portable).needsUnits = true ∧
    glade.Furnished [some Stage.vertex, some .pixel] ∧ gladeLinked.ok = false ∧
    gladeLinked.program.reflection.blocks = ["Night", "Swarm"] ∧
    gladeLinked.program.reflection.offsets.get? "fireflies" = some 128 ∧
    (gladeLinked.program.reflection.offsets.get? "grid[1]").isSome = true ∧
    gladeLinked.program.reflection.offsets.get? "moon" = none ∧
    ¬glade.Furnished [some Stage.vertex, none] ∧
    (glade.linkWith gladeBackend [some .vertex, none] portable).ok = false ∧
    (glade.linkWith gladeBackend [some .vertex, none] portable).program = glade := by
  have hfresh : glade.Fresh := .resolved (.collected gladeDecl) _ _ _
  have hneeds : (Strategy.ofHeader portable).needsUnits = true := rfl
  obtain ⟨hlive, -, -⟩ := linkWith_records_live glade hfresh gladeBackend
    [some .vertex, some .pixel] portable hneeds
  obtain ⟨-, -, hrefused⟩ := linkWith_records_live glade hfresh gladeBackend
    [some .vertex, none] portable hneeds
  obtain ⟨hblocks, -, hkeys, hoffsets⟩ := hlive furnished_glade rfl gladeLive rfl
  have hlast : ∀ u ∈ gladeLive.uniforms.drop 2,
      ¬(u.type < resourceTypes ∧ stripIndex u.name = "fireflies") := by decide
  have hloose : ∀ u ∈ gladeLive.uniforms,
      ¬(u.offset.isSome = true ∧ stripIndex u.name = "moon") := by decide
  refine ⟨hfresh, hneeds, furnished_glade, by decide +kernel, hblocks, ?_, ?_, ?_,
    not_furnished_glade, hrefused (Or.inl not_furnished_glade)⟩
  · refine (hoffsets "fireflies" 128).mpr ⟨gladeLive.uniforms.take 1,
      ⟨"fireflies[7]", 0x8B52, some 128⟩, gladeLive.uniforms.drop 2, rfl, by decide, ?_⟩
    intro later hlater other hother
    exact hlast later hlater ⟨hother.1, hother.2.2⟩
  · exact (hkeys "grid[1]").mpr ⟨⟨"grid[1][2]", 0x1406, some 32⟩, by decide, 32, by decide, rfl,
      by decide⟩
  · refine Option.not_isSome_iff_eq_none.mp ?_
    intro hsome
    obtain ⟨u, hu, offset, -, hoffset, hname⟩ := (hkeys "moon").mp hsome
    exact hloose u hu ⟨Option.isSome_of_eq_some hoffset, hname⟩

end Program

end EffectLink
