import EffectLink.Proofs.ArtifactRoundTrip
import EffectLink.Proofs.BackendLinking
import EffectLink.Proofs.StandaloneLink

namespace EffectLink

/-- The name of the shader that a row asks for. -/
def Header.identityOf (header : Header) (row : ProgramRow) : String :=
  shaderIdentity row.value (header.builtIn row.bindings)

/-- The function that the last row of a stage names. -/
def Effect.functionOf (effect : Effect) (decl : ProgramDecl) (stage : Stage) : Option Function :=
  (decl.lastRow stage.rowKey).bind fun row => effect.functions.find? (·.name == row.value)

/-- The record of a declaration, given what the backend adds to it. -/
def Record.ofDecl (header : Header) (effect : Effect) (decl : ProgramDecl) (live : LiveSet)
    (binary : Stage → List UInt32) : Record :=
  { name := decl.name
    annotation := decl.annotation.map (·.entries)
    hasHull := decl.rows.any (·.key == "HullShader")
    patchSize := ((effect.functionOf decl .hull).map (·.attributeValue .inputVertices)).getD 0
    vertexInputs := ((effect.functionOf decl .vertex).map (·.inputSlots)).getD []
    pixelOutputs := ((effect.functionOf decl .pixel).map (·.outputAttachments)).getD []
    hasGeometry := decl.rows.any (·.key == "GeometryShader")
    stages := .ofFn fun stage =>
      match decl.lastRow stage.rowKey with
      | some row => ⟨header.identityOf row, (header.leftOver row.bindings).entries, binary stage⟩
      | none => ⟨"", [], []⟩
    blocks := live.blocks
    uniforms := live.uniforms.map (·.name)
    offsets := (KeyMap.ofList (live.uniforms.filterMap (·.dataOffset?))).entries
    renderState := ((decl.lastRow "RenderState").map (·.value)).getD "" }

namespace Program

/-- A program that its declaration describes, with shaders from a pool and nothing linked yet. -/
structure Described (header : Header) (effect : Effect) (decl : ProgramDecl) (pool : Pool)
    (p : Program) : Prop where
  name : p.name = decl.name
  annotation : p.annotation = decl.annotation
  renderState : p.renderState.map (·.name) = (decl.lastRow "RenderState").map (·.value)
  patchSize : p.patchSize =
    ((effect.functionOf decl .hull).map (·.attributeValue .inputVertices)).getD 0
  reflection : p.reflection = .empty
  vacant : ∀ stage, decl.lastRow stage.rowKey = none → p.slots.get stage = .vacant
  filled : ∀ stage row, decl.lastRow stage.rowKey = some row →
    p.slots.get stage = { stageRow .vacant row with
      shaderName := header.identityOf row
      bindings := header.leftOver row.bindings
      shader := pool.lookup stage (header.identityOf row) }
  shaders : ∀ stage row, decl.lastRow stage.rowKey = some row →
    ∃ shader, pool.find? stage (header.identityOf row) = some shader ∧
      effect.functions.find? (·.name == row.value) = some shader.function ∧
      shader.bindings = header.builtIn row.bindings

section Described

variable {header : Header} {effect : Effect} {decl : ProgramDecl} {pool : Pool} {p q : Program}

theorem Described.unlinked (h : p.Described header effect decl pool) : p.Unlinked := by
  refine ⟨h.reflection, fun stage => ?_⟩
  cases hrow : decl.lastRow stage.rowKey with
  | none =>
    rw [h.vacant stage hrow]
    rfl
  | some row =>
    rw [h.filled stage row hrow]
    rfl

theorem Described.isPopulated_eq (h : p.Described header effect decl pool) (stage : Stage) :
    p.isPopulated stage = decl.rows.any (·.key == stage.rowKey) := by
  rw [← decl.isSome_lastRow, isPopulated]
  cases hrow : decl.lastRow stage.rowKey with
  | none =>
    rw [h.vacant stage hrow]
    rfl
  | some row =>
    rw [h.filled stage row hrow]
    rfl

/-- The shader of a stage is a shader of the function that the row names. -/
theorem Described.pooledFunction_eq (h : p.Described header effect decl pool) (stage : Stage) :
    p.pooledFunction pool stage = effect.functionOf decl stage := by
  rw [Program.pooledFunction_eq, Effect.functionOf]
  cases hrow : decl.lastRow stage.rowKey with
  | none =>
    rw [h.vacant stage hrow]
    rfl
  | some row =>
    obtain ⟨shader, hfind, hfunction, -⟩ := h.shaders stage row hrow
    rw [h.filled stage row hrow]
    change (pool.find? stage (header.identityOf row)).map _ = _
    rw [hfind, Option.bind_some, hfunction]
    rfl

/-- What is linked has the record of its declaration. -/
theorem Described.record_eq (h : p.Described header effect decl pool) {live : LiveSet}
    {binary : Stage → List UInt32} (hq : p.Completed q live binary) :
    Record.ofProgram q pool = Record.ofDecl header effect decl live binary := by
  have hpopulated (stage : Stage) : q.isPopulated stage = decl.rows.any (·.key == stage.rowKey) := by
    rw [← h.isPopulated_eq, isPopulated, hq.slots]
    rfl
  have hfunction (stage : Stage) : q.pooledFunction pool stage = effect.functionOf decl stage := by
    rw [← h.pooledFunction_eq, Program.pooledFunction_eq, Program.pooledFunction_eq, hq.slots]
  -- a stage without rows has an empty block, since the backend is not asked for its binary
  have hstage (stage : Stage) : StageRecord.ofSlot (q.slots.get stage) =
      match decl.lastRow stage.rowKey with
      | some row => ⟨header.identityOf row, (header.leftOver row.bindings).entries, binary stage⟩
      | none => ⟨"", [], []⟩ := by
    rw [hq.slots]
    cases hrow : decl.lastRow stage.rowKey with
    | none =>
      have hempty : binary stage = [] := by
        apply hq.vacant
        rw [isPopulated, h.vacant stage hrow]
        rfl
      rw [h.vacant stage hrow, hempty]
      rfl
    | some row =>
      rw [h.filled stage row hrow]
      rfl
  have hstate : q.renderState.map (·.name) = (decl.lastRow "RenderState").map (·.value) := by
    rw [hq.frame]
    exact h.renderState
  have hkept : q.name = decl.name ∧ q.annotation = decl.annotation ∧ q.patchSize = p.patchSize ∧
      q.reflection = .ofLive live := by
    rw [hq.frame]
    exact ⟨h.name, h.annotation, rfl, rfl⟩
  obtain ⟨hname, hannotation, hsize, hlive⟩ := hkept
  unfold Record.ofProgram Record.ofDecl
  simp only [hstate, hfunction, hpopulated, hstage, hname, hannotation, hsize, hlive, h.patchSize]
  rfl

/-- The units that the stages find, in terms of the rows. -/
theorem Described.foundUnits_eq {U : Type} (h : p.Described header effect decl pool)
    (unit : Shader → Option U) (stages : List Stage) :
    p.foundUnits (pool.shaders.map unit) stages = stages.filterMap fun stage =>
      ((decl.lastRow stage.rowKey).bind fun row =>
        (pool.find? stage (header.identityOf row)).bind unit).map fun u => (stage, u) := by
  unfold foundUnits
  congr 1
  funext stage
  congr 1
  cases hrow : decl.lastRow stage.rowKey with
  | none =>
    have hslot : p.slot stage = none := by
      rw [slot_eq_none, h.vacant stage hrow]
      rfl
    rw [hslot]
    rfl
  | some row =>
    have hslot := slot_eq_some.mpr ⟨h.filled stage row hrow, rfl⟩
    rw [hslot, Option.bind_some, Option.bind_some, unitAt, bind_units]
    change ((pool.find? stage (header.identityOf row)).map unit).join = _
    cases pool.find? stage (header.identityOf row) <;> rfl

end Described

end Program

namespace Linker

variable {U : Type} {job : Job} {effect : Effect} {s : Session}

/-- The functions that validation has found are those that the rows name. -/
theorem functions_of_passed {i : Nat} {decl : ProgramDecl} {linked : LinkedProgram}
    (hi : (admitted job effect s)[i]? = some linked) (hok : linked.ok = true)
    (hdecl : effect.programs[i]? = some decl) (stage : Stage) :
    ((Program.ofDecl decl).functions (symbols job effect)).get stage =
      effect.functionOf decl stage := by
  obtain ⟨decl', size, hdecl', hprogram, hresolvable⟩ := program_admitted hi hok
  rw [hdecl] at hdecl'
  cases hdecl'
  have hslot := Program.slot_ofDecl decl stage
  unfold Program.functions Effect.functionOf
  rw [PerStage.get_ofFn, hslot]
  cases hrow : decl.lastRow stage.rowKey with
  | none => rfl
  | some row =>
    rw [hrow] at hslot
    obtain ⟨f, hf, hshader⟩ := hresolvable.functions stage (Program.stageRow .vacant row) (by
      rw [hprogram]
      exact hslot)
    have hfunction : Program.stageFunction (symbols job effect) stage
        (Program.stageRow .vacant row) = .ok f := Program.stageFunction_eq_ok.mpr ⟨hf, hshader⟩
    rw [Option.map_some, Option.bind_some, Option.bind_some, hfunction]
    exact (find?_function_of_symbols hf).symm

/-- Validation takes the patch size from the function of the last hull row. -/
theorem patchSize_admitted {i : Nat} {decl : ProgramDecl} {linked : LinkedProgram}
    (hi : (admitted job effect s)[i]? = some linked) (hok : linked.ok = true)
    (hdecl : effect.programs[i]? = some decl) :
    linked.program.patchSize =
      ((effect.functionOf decl .hull).map (·.attributeValue .inputVertices)).getD 0 := by
  have hfunction := functions_of_passed hi hok hdecl .hull
  rw [getElem?_admitted, hdecl] at hi
  cases hi
  obtain ⟨hfaults, -⟩ := Bool.and_eq_true_iff.mp hok
  obtain ⟨hfree, -, -⟩ := Program.validate_passed (List.isEmpty_iff.mp hfaults)
  let before := (validateAll job.options (effect.check .empty).table (effect.programs.take i)).table
  have hagrees : ((Program.ofDecl decl).entered before).Agrees (symbols job effect) :=
    ((addsPrograms_validateAll _ _ _).trans Program.addsPrograms_entered).agrees
      (addsPrograms_symbols job effect)
  have hhull : ((Program.ofDecl decl).functions (symbols job effect)).hull =
      effect.functionOf decl .hull := hfunction
  dsimp only
  rw [Program.validate_fresh hfree]
  dsimp only
  -- validation looks the hull function up before the later programs are there
  rw [Program.validatedPatchSize, Program.functions_congr hagrees, hhull]
  cases effect.functionOf decl .hull with
  | some hull => rfl
  | none => exact (Program.kept_ofDecl decl).2.2.1

/-- A program that goes on with its shaders is the one that its declaration describes. -/
theorem described_resolution (hplain : job.header.switches.staticBindings = true → effect.PlainNames)
    {i : Nat} {decl : ProgramDecl} {linked : LinkedProgram}
    (hi : (resolution job effect s).programs[i]? = some linked) (hok : linked.ok = true)
    (hdecl : effect.programs[i]? = some decl) :
    linked.program.Described job.header effect decl (resolution job effect s).pool := by
  obtain ⟨before, start, r, hbefore, hgood, hr, hresolving, hextends⟩ := getElem?_resolution hi hok
  obtain ⟨decl', size, hdecl', hprogram, hresolvable⟩ := program_admitted hbefore hgood
  rw [hdecl] at hdecl'
  cases hdecl'
  have hpassed : Passed job effect s i := ⟨before, hbefore, hgood⟩
  have hrowOf (stage : Stage) : rowOf effect i stage = decl.lastRow stage.rowKey := by
    rw [rowOf, hdecl]
    rfl
  obtain ⟨hname, -, -, hreflection⟩ := Program.kept_ofDecl decl
  -- giving out shaders changes the slots alone
  have hframe : linked.program = { before.program with slots := linked.program.slots } := by
    rw [hr]
    exact hresolving.frame
  have hfilled (stage : Stage) (row : ProgramRow) (hrow : decl.lastRow stage.rowKey = some row) :
      ∃ f flags, (symbols job effect).get? row.value = some (.function f) ∧
        linked.program.slots.get stage = { Program.stageRow .vacant row with
          shaderName := job.header.identityOf row
          bindings := job.header.leftOver row.bindings
          shader := (resolution job effect s).pool.lookup stage (job.header.identityOf row) } ∧
        (resolution job effect s).pool.find? stage (job.header.identityOf row) = some
          { stage
            identity := job.header.identityOf row
            function := f
            compileFlags := flags
            bindings := job.header.builtIn row.bindings } := by
    obtain ⟨f, id, flags, hf, hslot, hpooled⟩ :=
      slotOf_of_row hplain hpassed ((hrowOf stage).trans hrow)
    have hidentity : shaderIdentity f.name (job.header.builtIn row.bindings) =
        job.header.identityOf row := by
      have hname : f.name = row.value := SymbolTable.name_of_get? hf
      rw [hname]
      rfl
    rw [hidentity] at hslot hpooled
    have hlookup := (distinct_resolution job effect s).lookup_eq hpooled
    dsimp only at hlookup
    -- the pool has one shader with this key, so the id of the slot is the one that is looked up
    rw [slotOf, hi] at hslot
    refine ⟨f, flags, hf, ?_, ?_⟩
    · rw [hlookup]
      exact (Program.slot_eq_some.mp hslot).1
    · rw [Pool.find?, hlookup]
      exact hpooled
  constructor
  · rw [hframe, hprogram]
    exact hname
  · rw [hframe, hprogram]
    rfl
  · rw [hframe, hprogram]
    dsimp only
    rw [Program.renderState_ofDecl, Option.map_map]
    rfl
  · rw [hframe]
    exact patchSize_admitted hbefore hgood hdecl
  · rw [hframe, hprogram]
    exact hreflection
  · intro stage hrow
    have hvacant : (Program.ofDecl decl).slots.get stage = .vacant := by
      rw [Program.slots_ofDecl, hrow]
    have hslot : before.program.slot stage = none := by
      rw [slot_admitted hbefore hgood, hrowOf, hrow]
      rfl
    rw [hr, hresolving.untouched stage (Or.inr hslot), hprogram]
    exact hvacant
  · intro stage row hrow
    obtain ⟨f, flags, -, hslot, -⟩ := hfilled stage row hrow
    exact hslot
  · intro stage row hrow
    obtain ⟨f, flags, hf, -, hfind⟩ := hfilled stage row hrow
    exact ⟨_, hfind, find?_function_of_symbols hf, rfl⟩

/-- The units of the stages that have rows, in pipeline order: for each the compiled form of the pooled
shader that the row asks for. -/
def declaredUnits (job : Job) (backend : Backend U) (pool : Pool) (decl : ProgramDecl) :
    List (Stage × U) :=
  Stage.all.filterMap fun stage =>
    ((decl.lastRow stage.rowKey).bind fun row =>
      (pool.find? stage (job.header.identityOf row)).bind (compiledUnit job backend)).map
        fun unit => (stage, unit)

/-- The artifact of a program that is linked reads back as the record of its declaration. What the backend
adds to it is what it produces from the units of all stages that have rows, each the compiled form of a
shader of the named function with the static bindings of the row. -/
theorem decode_linked (backend : Backend U)
    (hplain : job.header.switches.staticBindings = true → effect.PlainNames)
    {i : Nat} {decl : ProgramDecl} {linked : LinkedProgram}
    (hdecl : effect.programs[i]? = some decl)
    (hlinked : (link job backend effect s).2.programs[i]? = some linked) (hok : linked.ok = true)
    (hfits : (Record.ofProgram linked.program (link job backend effect s).2.pool).Fits) :
    let pool := (link job backend effect s).2.pool
    let units := declaredUnits job backend pool decl
    ∃ live binary,
      Record.decode (linked.program.artifact pool) =
        .ok (Record.ofDecl job.header effect decl live binary) ∧
      backend.Produces decl.name units (Strategy.ofHeader job.header) live binary ∧
      ((Strategy.ofHeader job.header).needsUnits = true →
        units.map Prod.fst = Stage.all.filter fun stage =>
          decl.rows.any (·.key == stage.rowKey)) ∧
      ∀ stage row, decl.lastRow stage.rowKey = some row →
        ∃ shader, pool.find? stage (job.header.identityOf row) = some shader ∧
          effect.functions.find? (·.name == row.value) = some shader.function ∧
          shader.bindings = job.header.builtIn row.bindings := by
  rw [programs_link, List.getElem?_map] at hlinked
  rw [pool_link] at hfits ⊢
  intro pool units
  obtain ⟨before, hbefore, hlink⟩ := Option.map_eq_some_iff.mp hlinked
  by_cases hgood : before.ok = true
  · have hdescribed := described_resolution hplain hbefore hgood hdecl
    rw [linkOne, if_pos hgood] at hlink
    cases hlink
    obtain ⟨live, binary, hproduces, hcompleted, hstages⟩ :=
      Program.linkWith_ok hdescribed.unlinked hok
    have hunits (hneeds : (Strategy.ofHeader job.header).needsUnits = true) :
        before.program.foundUnits
          (Program.unitsOf (compiledUnit job backend) job.header pool) Stage.all = units := by
      rw [Program.unitsOf, if_pos hneeds]
      exact hdescribed.foundUnits_eq _ _
    rw [hdescribed.name] at hproduces
    refine ⟨live, binary, ?_, hproduces.congr_units hunits, fun hneeds => ?_, hdescribed.shaders⟩
    · rw [Program.artifact, Record.decode_encode hfits, ← hdescribed.record_eq hcompleted]
    · rw [← hunits hneeds, hstages hneeds, Program.populated]
      congr 1
      funext stage
      exact hdescribed.isPopulated_eq stage
  · -- a program that was given up before is not taken up again
    rw [linkOne, if_neg hgood] at hlink
    cases hlink
    exact absurd hok hgood

def arctic : Location := ⟨"aurora.json", 1⟩

def auroraShader (name : String) (parameters : List Parameter) (attributes : Attributes) : Function :=
  { name, location := arctic, returnType := .builtin .void, parameters, isShader := true, attributes
    code := "void main() {}" }

/-- A tessellated program. Its first hull row is overruled by the second. -/
def borealis : ProgramDecl :=
  { name := "Borealis", location := arctic
    rows := [⟨"RenderState", "night", ∅, arctic⟩, ⟨"VertexShader", "curtain", ∅, arctic⟩,
      ⟨"HullShader", "curtain", ∅, arctic⟩,
      ⟨"HullShader", "fold", .ofList [("hue", "green")], arctic⟩,
      ⟨"DomainShader", "drape", ∅, arctic⟩, ⟨"PixelShader", "glow", ∅, arctic⟩]
    annotation := some ⟨arctic, [⟨"latitude", .uint 67⟩]⟩ }

def aurora : Effect :=
  { name := "aurora", file := "aurora.json", structures := []
    globals := [⟨"hue", arctic, .builtin .float, none, true⟩]
    subroutines := [⟨"green", arctic, .implementation⟩]
    renderStates := [⟨"night", arctic⟩]
    functions :=
      [auroraShader "curtain"
        [⟨"position", .builtin .float4, none, arctic, .input, none, none⟩,
         ⟨"phase", .builtin .float, none, arctic, .input, some 5, none⟩] .none,
       auroraShader "fold" [] (.ofList [(.inputVertices, 3), (.outputVertices, 4)]),
       auroraShader "drape" [] (.ofList [(.inputVertices, 4)]),
       auroraShader "glow" [⟨"colour", .builtin .float4, none, arctic, .output, none, some 2⟩] .none]
    programs := [borealis] }

/-- A portable job with static bindings, whose sources are the identities of the shaders. -/
def auroraJob : Job :=
  { header := ⟨.spirv, 1, 0, { Switches.none with staticBindings := true }⟩
    options := .standard
    outDir := "out"
    generate := fun _ shader => .ok shader.identity }

/-- The binary of a stage is the number of units and the position of the stage. -/
def prism : Backend String :=
  { echo with
    reflect := fun _ units => .ok ⟨units.map (·.2), [⟨"rays[0]", 1, some 64⟩, ⟨"sky", resourceTypes, some 8⟩]⟩
    binary := fun _ units stage => .ok [UInt32.ofNat units.length, UInt32.ofNat stage.index] }

/-- The second hull row gives the patch size, the name and the binary of the hull stage. -/
theorem decode_linked_aurora :
    aurora.PlainNames ∧
    ∃ linked, (link auroraJob prism aurora emptySession).2.programs[0]? = some linked ∧
      linked.ok = true ∧
      (Record.ofProgram linked.program (link auroraJob prism aurora emptySession).2.pool).Fits ∧
      ∃ record, Record.decode (linked.program.artifact
          (link auroraJob prism aurora emptySession).2.pool) = .ok record ∧
        record.hasHull = true ∧ record.patchSize = 3 ∧ record.hasGeometry = false ∧
        record.vertexInputs = [0, 5] ∧ record.pixelOutputs = [2] ∧
        record.stages.hull = ⟨"fold(hue = green)", [], [4, 1]⟩ ∧
        record.blocks = ["curtain", "fold(hue = green)", "drape", "glow"] ∧
        record.uniforms = ["rays[0]", "sky"] ∧ record.offsets = [("rays", 64)] := by
  have hplain : aurora.PlainNames := ⟨by decide, by decide, by decide⟩
  have hgood : (link auroraJob prism aurora emptySession).2.programs[0]?.any (fun linked =>
      linked.ok && decide (Record.ofProgram linked.program
        (link auroraJob prism aurora emptySession).2.pool).Fits) = true := by decide
  obtain ⟨linked, hlinked, hgood⟩ := (Option.any_eq_true _ _).mp hgood
  obtain ⟨hok, hfits⟩ := Bool.and_eq_true_iff.mp hgood
  have hfits := of_decide_eq_true hfits
  have hdecl : aurora.programs[0]? = some borealis := rfl
  obtain ⟨live, binary, hdecode, hproduces, -, -⟩ :=
    decode_linked prism (fun _ => hplain) hdecl hlinked hok hfits
  have hunits : declaredUnits auroraJob prism (link auroraJob prism aurora emptySession).2.pool
      borealis = [(.vertex, "curtain"), (.hull, "fold(hue = green)"), (.domain, "drape"),
        (.pixel, "glow")] := by decide
  have hstrategy : Strategy.ofHeader auroraJob.header = .portable := by decide
  rw [hunits, hstrategy] at hproduces
  cases hproduces with
  | portable hlink hreflect hbinary =>
    have hlive := Except.ok.inj hreflect
    have hhull : [4, 1] = binary .hull := Except.ok.inj (hbinary .hull (by decide))
    have hrow : borealis.lastRow Stage.hull.rowKey =
        some ⟨"HullShader", "fold", .ofList [("hue", "green")], arctic⟩ := by decide
    refine ⟨hplain, linked, hlinked, hok, hfits, _, hdecode, ?_⟩
    unfold Record.ofDecl
    rw [← hlive]
    simp only [PerStage.ofFn, hrow, ← hhull]
    decide

end Linker

end EffectLink
