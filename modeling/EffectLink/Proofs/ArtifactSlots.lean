import EffectLink.Proofs.ArtifactRoundTrip
import EffectLink.Proofs.ConfinedWrites
import EffectLink.Proofs.WellDeclared

namespace EffectLink

variable {choice : Parameter → Option UInt32} {parameters : List Parameter}

/-- A parameter has chosen a number that another one has, by choice or by position. -/
def Clashes (choice : Parameter → Option UInt32) (parameters : List Parameter) : Prop :=
  ∃ (i j : Nat) (n : UInt32), i ≠ j ∧ parameters[i]?.bind choice = some n ∧
    (effective choice parameters)[j]? = some n

theorem length_effective : (effective choice parameters).length = parameters.length := by
  simp [effective]

theorem getElem?_effective (i : Nat) :
    (effective choice parameters)[i]? =
      parameters[i]?.map fun p => (choice p).getD (UInt32.ofNat i) := by
  unfold effective
  rw [List.getElem?_map, List.getElem?_zipIdx, Option.map_map, Nat.zero_add]
  rfl

theorem effective_of_choice {i : Nat} {n : UInt32} (h : parameters[i]?.bind choice = some n) :
    (effective choice parameters)[i]? = some n := by
  obtain ⟨p, hp, hn⟩ := Option.bind_eq_some_iff.mp h
  rw [getElem?_effective, hp, Option.map_some, hn]
  rfl

/-- A number is chosen, or it is the position. -/
theorem choice_or_position {i : Nat} {n : UInt32} (h : (effective choice parameters)[i]? = some n) :
    parameters[i]?.bind choice = some n ∨ n = UInt32.ofNat i := by
  rw [getElem?_effective] at h
  obtain ⟨p, hp, hn⟩ := Option.map_eq_some_iff.mp h
  rw [hp, Option.bind_some]
  cases hchoice : choice p with
  | none => exact Or.inr (by rw [← hn, hchoice]; rfl)
  | some m => exact Or.inl (by rw [← hn, hchoice]; rfl)

/-- Positions are different as long as they fit into a word, so a number comes twice only if it was
chosen. -/
theorem nodup_effective (hlength : parameters.length ≤ UInt32.size) :
    (effective choice parameters).Nodup ↔ ¬Clashes choice parameters := by
  constructor
  · rintro hnodup ⟨i, j, n, hij, hi, hj⟩
    have hi := effective_of_choice hi
    have hlt : i < (effective choice parameters).length := (List.getElem?_eq_some_iff.mp hi).1
    exact hij ((List.getElem?_inj hlt hnodup).mp (hi.trans hj.symm))
  · intro hclash
    apply List.nodup_iff_getElem?_ne_getElem?.mpr
    intro i j hlt hj heq
    obtain ⟨n, hn⟩ : ∃ n, (effective choice parameters)[j]? = some n :=
      ⟨_, List.getElem?_eq_getElem hj⟩
    rw [hn] at heq
    -- two parameters have one number: the first has chosen it, or the second, or it is both positions
    rcases choice_or_position heq with hi | hi
    · exact hclash ⟨i, j, n, Nat.ne_of_lt hlt, hi, hn⟩
    · rcases choice_or_position hn with hj' | hj'
      · exact hclash ⟨j, i, n, Nat.ne_of_gt hlt, hj', heq⟩
      · rw [length_effective] at hj
        have hword := congrArg UInt32.toNat (hi.symm.trans hj')
        rw [UInt32.toNat_ofNat_of_lt' (by omega), UInt32.toNat_ofNat_of_lt' (by omega)] at hword
        omega

/-- There are no more words than that. -/
theorem length_le_of_nodup {words : List UInt32} (h : words.Nodup) : words.length ≤ UInt32.size := by
  have hnodup : (words.map UInt32.toNat).Nodup := h.map fun _ _ => UInt32.toNat_inj.mp
  have hsubset : words.map UInt32.toNat ⊆ List.range UInt32.size := by
    intro n hn
    obtain ⟨w, -, rfl⟩ := List.mem_map.mp hn
    exact List.mem_range.mpr w.toNat_lt
  calc words.length = (words.map UInt32.toNat).length := (List.length_map _).symm
    _ ≤ (List.range UInt32.size).length := (List.subperm_of_subset hnodup hsubset).length_le
    _ = UInt32.size := List.length_range

/-- Where the outputs have different slots, only the choice of attachments can bring two together. -/
theorem Function.nodup_outputAttachments {f : Function} (h : f.outputSlots.Nodup) :
    f.outputAttachments.Nodup ↔ ¬Clashes (·.attachment) f.outputs := by
  apply nodup_effective
  have hslots := length_le_of_nodup h
  rw [Function.outputSlots, length_effective] at hslots
  exact hslots

theorem Program.mem_pool_of_pooledFunction {p : Program} {pool : Pool} {stage : Stage} {f : Function}
    (h : p.pooledFunction pool stage = some f) : ∃ shader ∈ pool.shaders, shader.function = f := by
  rw [pooledFunction_eq] at h
  obtain ⟨shader, hshader, hf⟩ := Option.map_eq_some_iff.mp h
  obtain ⟨id, -, hid⟩ := Option.bind_eq_some_iff.mp hshader
  exact ⟨shader, List.mem_of_getElem? hid, hf⟩

namespace Linker

variable {U : Type} {job : Job} {backend : Backend U} {effect : Effect} {s : Session}

/-- There is a shader in the pool only if some program goes on, so that no declaration is at fault. -/
theorem function_of_pooled {config : QueueConfig} (hqueue : s.queue = .empty config) {shader : Shader}
    (h : shader ∈ (resolution job effect s).pool.shaders) :
    shader.function ∈ effect.functions ∧ effect.WellDeclared := by
  rcases (pooled_resolveAll _ _ (ready_admitted job effect s)).members shader h with
    hnone | ⟨linked, hmem, hok, stage, slot, f, -, hf, rfl⟩
  · exact absurd hnone List.not_mem_nil
  · refine ⟨List.mem_of_find?_eq_some (find?_function_of_symbols hf), ?_⟩
    obtain ⟨passed, -, rfl⟩ := List.mem_map.mp hmem
    obtain ⟨-, hsound⟩ := Bool.and_eq_true_iff.mp hok
    have herrors : ((Queue.empty config).addAll (effect.check .empty).faults).errors = 0 := by
      have hsame := beq_iff_eq.mp hsound
      rw [Session.report, hqueue] at hsame
      exact hsame
    rw [Queue.errors_addAll_empty fun d hd => (effect.flaws_check .empty d hd).1] at herrors
    exact Effect.faults_check_eq_nil.mp herrors

/-- The numbers that a record gives, against the functions of the effect. -/
structure Numbered (effect : Effect) (record : Record) : Prop where
  inputs : record.vertexInputs.Nodup
  outputs : record.pixelOutputs = [] ∨ ∃ f ∈ effect.functions,
    record.pixelOutputs = f.outputAttachments ∧
    (record.pixelOutputs.Nodup ↔ ¬Clashes (·.attachment) f.outputs)

theorem numbered_ofProgram {config : QueueConfig} (hqueue : s.queue = .empty config) (p : Program) :
    Numbered effect (Record.ofProgram p (resolution job effect s).pool) := by
  have hpooled {stage : Stage} {f : Function}
      (hf : p.pooledFunction (resolution job effect s).pool stage = some f) :
      f ∈ effect.functions ∧ effect.WellDeclared := by
    obtain ⟨shader, hshader, rfl⟩ := Program.mem_pool_of_pooledFunction hf
    exact function_of_pooled hqueue hshader
  constructor
  · unfold Record.ofProgram
    dsimp only
    cases hf : p.pooledFunction (resolution job effect s).pool .vertex with
    | none => exact List.nodup_nil
    | some f =>
      obtain ⟨hmem, hgood⟩ := hpooled hf
      exact hgood.inputs f hmem
  · unfold Record.ofProgram
    dsimp only
    cases hf : p.pooledFunction (resolution job effect s).pool .pixel with
    | none => exact Or.inl rfl
    | some f =>
      obtain ⟨hmem, hgood⟩ := hpooled hf
      exact Or.inr ⟨f, hmem, rfl, f.nodup_outputAttachments (hgood.outputs f hmem)⟩

/-- From an empty queue, everything that a run writes is the source of a shader or a record without
repetition among the slots of the vertex inputs. Among the pixel outputs there is none unless an output
has chosen the attachment of another. -/
theorem run_slots (job : Job) (backend : Backend U) (effect : Effect) {config : QueueConfig}
    (hqueue : s.queue = .empty config) :
    (run job backend effect s).1.disk = s.disk.storeAll job.outDir (files job backend effect s) ∧
    ∀ file ∈ files job backend effect s,
      file ∈ dumpFiles job (link job backend effect (s.call .acquire)).2.pool ∨
      ∃ record : Record, file.2 = record.encode ∧
        (record.Fits → Record.decode file.2 = .ok record) ∧ Numbered effect record := by
  refine ⟨run_disk job backend effect s _, fun file hfile => ?_⟩
  unfold files at hfile
  cases hacquire : backend.acquire with
  | error message =>
    rw [hacquire] at hfile
    exact absurd hfile List.not_mem_nil
  | ok _ =>
    rw [hacquire] at hfile
    refine (List.mem_append.mp hfile).imp_right fun hartifact => ?_
    obtain ⟨linked, -, hmem⟩ := List.mem_flatMap.mp hartifact
    unfold programFiles at hmem
    split at hmem
    · rw [List.mem_singleton.mp hmem, pool_link]
      exact ⟨Record.ofProgram linked.program _, rfl, Record.decode_encode,
        numbered_ofProgram hqueue linked.program⟩
    · exact absurd hmem List.not_mem_nil

def chapel : Location := ⟨"rose.json", 1⟩

def glassShader (name : String) (parameters : List Parameter) : Function :=
  { name, location := chapel, returnType := .builtin .void, parameters, isShader := true
    attributes := .none, code := "void main() {}" }

/-- The outputs of `stain` have slots 0 and 1, and both have attachment 1: the first by choice, the
second by its position. -/
def rose : Effect :=
  { name := "rose", file := "rose.json", structures := [], globals := [], subroutines := []
    renderStates := [⟨"lead", chapel⟩]
    functions :=
      [glassShader "light" [⟨"ray", .builtin .float4, none, chapel, .input, some 3, none⟩,
        ⟨"hour", .builtin .float, none, chapel, .input, none, none⟩],
       glassShader "stain" [⟨"red", .builtin .float4, none, chapel, .output, none, some 1⟩,
        ⟨"blue", .builtin .float4, none, chapel, .output, none, none⟩]]
    programs :=
      [{ name := "Window", location := chapel
         rows := [⟨"VertexShader", "light", ∅, chapel⟩, ⟨"PixelShader", "stain", ∅, chapel⟩,
           ⟨"RenderState", "lead", ∅, chapel⟩]
         annotation := none }] }

theorem run_slots_rose :
    emptySession.queue = .empty .standard ∧
    ∃ file ∈ files stubJob echo rose emptySession, file.1 = "out/Window.fxb" ∧
      ∃ record : Record, file.2 = record.encode ∧ Numbered rose record := by
  have hpaths : (files stubJob echo rose emptySession).map (·.1) = ["out/Window.fxb"] := by decide
  obtain ⟨-, hfiles⟩ := run_slots stubJob echo rose (s := emptySession) rfl
  obtain ⟨file, hfile, hpath⟩ :
      ∃ file ∈ files stubJob echo rose emptySession, file.1 = "out/Window.fxb" := by
    apply List.mem_map.mp
    rw [hpaths]
    exact List.mem_singleton_self _
  refine ⟨rfl, file, hfile, hpath, ?_⟩
  rcases hfiles file hfile with hdump | ⟨record, hencode, -, hnumbered⟩
  · exact absurd hdump List.not_mem_nil
  · exact ⟨record, hencode, hnumbered⟩

/-- Nothing is wrong with the declarations, and yet the artifact, read back, has both outputs in
attachment 1. -/
theorem run_repeats_attachment :
    let outcome := run stubJob echo rose emptySession
    rose.WellDeclared ∧ outcome.2 = ⟨["out/Window.fxb"], []⟩ ∧
    ((outcome.1.disk.read "out/Window.fxb").toOption.bind fun contents =>
      (Record.decode contents).toOption.map fun record => (record.vertexInputs, record.pixelOutputs)) =
      some ([3, 1], [1, 1]) := by
  refine ⟨by decide, by decide +kernel, by decide +kernel⟩

end Linker

end EffectLink
