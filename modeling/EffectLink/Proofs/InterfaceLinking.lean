import EffectLink.Proofs.PathOrder
import EffectLink.Proofs.PipelineOrder
import EffectLink.Proofs.TextPieces

namespace EffectLink

/-- The values of the members, in order. -/
def Members.values : Members → List (Shape × Option Binding)
  | .nil => []
  | .cons _ _ binding shape rest => (shape, binding) :: rest.values

/-- The value has a user location at a path, which is the list of the positions of members on the way
down. Only structures without a binding are entered. -/
inductive LocatedAt : Shape × Option Binding → List Nat → UInt32 → Prop where
  | here (shape : Shape) (location : UInt32) : LocatedAt (shape, some (.location location)) [] location
  | member {members : Members} {position : Nat} {value : Shape × Option Binding} {path : List Nat}
      {location : UInt32} (hvalue : members.values[position]? = some value)
      (hlocated : LocatedAt value path location) :
      LocatedAt (.struct members, none) (position :: path) location

mutual

/-- The user locations of a value with their paths. -/
def Shape.located : Shape → Option Binding → List (List Nat × UInt32)
  | _, some (.location location) => [([], location)]
  | _, some .builtin => []
  | .struct members, none => members.located 0
  | _, none => []

def Members.located (start : Nat) : Members → List (List Nat × UInt32)
  | .nil => []
  | .cons _ _ binding shape rest =>
    (shape.located binding).map (fun input => (start :: input.1, input.2)) ++ rest.located (start + 1)

end

mutual

theorem Shape.lists_located : (shape : Shape) → (binding : Option Binding) →
    Lists (LocatedAt (shape, binding)) (shape.located binding)
  | shape, some (.location location) => by
    unfold Shape.located
    apply lists_singleton
    intro path found
    constructor
    · intro h
      cases h
      exact ⟨rfl, rfl⟩
    · intro h
      rw [h.1, h.2]
      exact .here shape location
  | shape, some .builtin => by
    unfold Shape.located
    apply lists_nil
    intro path location h
    cases h
  | .struct members, none => by
    unfold Shape.located
    have hmembers := members.lists_located 0
    refine ⟨hmembers.sorted, ?_⟩
    intro path location
    rw [hmembers.mem_iff]
    cases path with
    | nil =>
      constructor
      · intro h
        exact absurd h id
      · intro h
        cases h
    | cons position path =>
      constructor
      · intro h
        obtain ⟨-, value, hvalue, hlocated⟩ := h
        exact .member hvalue hlocated
      · intro h
        cases h with
        | member hvalue hlocated => exact ⟨Nat.zero_le _, _, hvalue, hlocated⟩
  | .scalar _, none | .vector _ _, none | .matrix _ _ _, none | .array _, none
  | .bindingArray _ _, none | .image _ _, none | .sampler _, none | .other, none => by
    unfold Shape.located
    apply lists_nil
    intro path location h
    cases h

theorem Members.lists_located : (members : Members) → (start : Nat) →
    Lists (Among LocatedAt start members.values) (members.located start)
  | .nil, start => by
    unfold Members.located
    exact lists_among_nil
  | .cons _ _ binding shape rest, start => by
    have hrest := rest.lists_located (start + 1)
    unfold Members.located Members.values
    exact (shape.lists_located binding).cons hrest

end

mutual

theorem Shape.map_located : (shape : Shape) → (binding : Option Binding) →
    (shape.located binding).map Prod.snd = shape.locations binding
  | _, some (.location _) | _, some .builtin => by
    simp [Shape.located, Shape.locations]
  | .struct members, none => by
    unfold Shape.located Shape.locations
    exact members.map_located 0
  | .scalar _, none | .vector _ _, none | .matrix _ _ _, none | .array _, none
  | .bindingArray _ _, none | .image _ _, none | .sampler _, none | .other, none => by
    simp [Shape.located, Shape.locations]

theorem Members.map_located : (members : Members) → (start : Nat) →
    (members.located start).map Prod.snd = members.locations
  | .nil, _ => by
    simp [Members.located, Members.locations]
  | .cons _ _ binding shape rest, start => by
    unfold Members.located Members.locations
    rw [List.map_append, List.map_map, ← shape.map_located binding, ← rest.map_located (start + 1)]
    rfl

end

/-- Members without names that have the given values. -/
def Members.ofValues : List (Shape × Option Binding) → Members
  | [] => .nil
  | value :: values => .cons "" 0 value.2 value.1 (ofValues values)

theorem Members.values_ofValues (values : List (Shape × Option Binding)) :
    (ofValues values).values = values := by
  induction values with
  | nil => rfl
  | cons value values ih =>
    unfold ofValues Members.values
    rw [ih]

theorem Members.locations_ofValues (values : List (Shape × Option Binding)) :
    (ofValues values).locations = values.flatMap fun value => value.1.locations value.2 := by
  induction values with
  | nil => simp [ofValues, Members.locations]
  | cons value values ih =>
    unfold ofValues Members.locations
    rw [ih, List.flatMap_cons]

namespace EntryPoint

/-- The entry point reads the location in one of its arguments. -/
def ReadsAt (e : EntryPoint) : List Nat → UInt32 → Prop := Among LocatedAt 0 e.arguments

def WritesTo (e : EntryPoint) (location : UInt32) : Prop :=
  ∃ value path, e.result = some value ∧ LocatedAt value path location

/-- The locations that are read, with their paths. -/
def inputs (e : EntryPoint) : List (List Nat × UInt32) := (Members.ofValues e.arguments).located 0

theorem lists_inputs (e : EntryPoint) : Lists e.ReadsAt e.inputs := by
  have h := (Members.ofValues e.arguments).lists_located 0
  rw [Members.values_ofValues] at h
  exact h

theorem map_inputs (e : EntryPoint) : e.inputs.map Prod.snd = e.reads := by
  unfold inputs reads
  rw [Members.map_located, Members.locations_ofValues]

theorem mem_writes {e : EntryPoint} {location : UInt32} :
    location ∈ e.writes ↔ e.WritesTo location := by
  unfold writes WritesTo
  cases e.result with
  | none => simp
  | some value =>
    dsimp only
    rw [← value.1.map_located value.2, List.mem_map]
    constructor
    · intro h
      obtain ⟨⟨path, found⟩, hinput, hfound⟩ := h
      subst hfound
      exact ⟨value, path, rfl, ((value.1.lists_located value.2).mem_iff path found).mp hinput⟩
    · intro h
      obtain ⟨other, path, hother, hlocated⟩ := h
      rw [← Option.some.inj hother] at hlocated
      exact ⟨(path, location), ((value.1.lists_located value.2).mem_iff path location).mpr hlocated, rfl⟩

end EntryPoint

namespace StageUnit

/-- The unit is entered at its first entry point of its own stage, if modules can have entry points of
that stage at all. -/
def Enters (u : StageUnit) (e : EntryPoint) : Prop :=
  u.stage.hasEntryPoints = true ∧ e.stage = u.stage ∧
    ∃ before after, u.content.entryPoints = before ++ e :: after ∧
      ∀ other ∈ before, other.stage ≠ u.stage

theorem entryPoint?_eq_some {u : StageUnit} {e : EntryPoint} :
    u.entryPoint? = some e ↔ u.Enters e := by
  unfold entryPoint? Enters
  cases u.stage.hasEntryPoints with
  | false => simp
  | true => simp [List.find?_eq_some_iff_append]

theorem isNone_entryPoint? {u : StageUnit} : u.entryPoint?.isNone = true ↔ ¬∃ e, u.Enters e := by
  rw [Option.isNone_iff_eq_none, Option.eq_none_iff_forall_ne_some, not_exists]
  apply forall_congr'
  intro e
  rw [← entryPoint?_eq_some]

end StageUnit

/-- The second unit is the next one after the first in pipeline order. -/
def Adjacent (units : List StageUnit) (producer consumer : StageUnit) : Prop :=
  producer ∈ units ∧ consumer ∈ units ∧ producer.stage.index < consumer.stage.index ∧
    ∀ u ∈ units, u.stage.index ≤ producer.stage.index ∨ consumer.stage.index ≤ u.stage.index

/-- Of units in pipeline order, the first two are adjacent, and all else is adjacent after the first. -/
theorem adjacent_cons {first second : StageUnit} {rest : List StageUnit}
    (h : (first :: second :: rest).Pairwise fun a b => a.stage.index < b.stage.index) {a b : StageUnit} :
    Adjacent (first :: second :: rest) a b ↔
      (a = first ∧ b = second) ∨ Adjacent (second :: rest) a b := by
  obtain ⟨hfirst, hlater⟩ := List.pairwise_cons.mp h
  obtain ⟨hsecond, -⟩ := List.pairwise_cons.mp hlater
  have hlt : first.stage.index < second.stage.index := hfirst second List.mem_cons_self
  have hle : ∀ u ∈ second :: rest, second.stage.index ≤ u.stage.index := by
    intro u hu
    rcases List.mem_cons.mp hu with hu | hu
    · exact hu ▸ Nat.le_refl _
    · exact Nat.le_of_lt (hsecond u hu)
  constructor
  · intro hadjacent
    obtain ⟨ha, hb, hab, hbetween⟩ := hadjacent
    -- nothing comes before the first unit, so the consumer is one of the others
    have hb : b ∈ second :: rest := by
      rcases List.mem_cons.mp hb with hb | hb
      · subst hb
        rcases List.mem_cons.mp ha with ha | ha
        · exact absurd hab (ha ▸ Nat.lt_irrefl _)
        · exact absurd hab (Nat.lt_asymm (hfirst a ha))
      · exact hb
    rcases List.mem_cons.mp ha with ha | ha
    · left
      refine ⟨ha, ?_⟩
      rcases List.mem_cons.mp hb with hb | hb
      · exact hb
      · have hafter := hsecond b hb
        have hbound := hbetween second (List.mem_cons_of_mem _ List.mem_cons_self)
        rw [ha] at hbound
        omega
    · right
      refine ⟨ha, hb, hab, ?_⟩
      intro u hu
      exact hbetween u (List.mem_cons_of_mem _ hu)
  · intro h
    rcases h with ⟨ha, hb⟩ | ⟨ha, hb, hab, hbetween⟩
    · subst ha
      subst hb
      refine ⟨List.mem_cons_self, List.mem_cons_of_mem _ List.mem_cons_self, hlt, ?_⟩
      intro u hu
      rcases List.mem_cons.mp hu with hu | hu
      · left
        exact hu ▸ Nat.le_refl _
      · right
        exact hle u hu
    · refine ⟨List.mem_cons_of_mem _ ha, List.mem_cons_of_mem _ hb, hab, ?_⟩
      intro u hu
      rcases List.mem_cons.mp hu with hu | hu
      · left
        exact hu ▸ Nat.le_of_lt (hfirst a ha)
      · exact hbetween u hu

/-- In units that stand in pipeline order, the adjacent ones stand next to each other. -/
theorem mem_zip_tail {units : List StageUnit}
    (h : units.Pairwise fun a b => a.stage.index < b.stage.index) {a b : StageUnit} :
    (a, b) ∈ units.zip units.tail ↔ Adjacent units a b := by
  induction units with
  | nil => simp [Adjacent]
  | cons first rest ih =>
    cases rest with
    | nil =>
      simp only [List.tail_cons, List.zip_nil_right, List.not_mem_nil, false_iff]
      intro hadjacent
      obtain ⟨ha, hb, hab, -⟩ := hadjacent
      rw [List.mem_singleton.mp ha, List.mem_singleton.mp hb] at hab
      exact Nat.lt_irrefl _ hab
    | cons second rest =>
      have hnext := ih (List.pairwise_cons.mp h).2
      rw [List.tail_cons] at hnext ⊢
      rw [List.zip_cons_cons, List.mem_cons, hnext, Prod.mk.injEq, adjacent_cons h]

/-- A place where a stage reads a location, and the stage before it. -/
structure InputUse where
  producer : Stage
  consumer : Stage
  path : List Nat
  location : UInt32

namespace InputUse

/-- Uses are ordered by the stage that reads, then by the path. -/
def position (use : InputUse) : List Nat := use.consumer.index :: use.path

/-- Both stages have an entry point, and that of the first does not write what is read. -/
def Unmatched (units : List StageUnit) (use : InputUse) : Prop :=
  ∃ producer consumer source target, Adjacent units producer consumer ∧
    producer.stage = use.producer ∧ consumer.stage = use.consumer ∧
    producer.Enters source ∧ consumer.Enters target ∧
    target.ReadsAt use.path use.location ∧ ¬source.WritesTo use.location

theorem not_unmatched_iff {units : List StageUnit} :
    (∀ use : InputUse, ¬use.Unmatched units) ↔
      ∀ producer consumer, Adjacent units producer consumer →
        ∀ source target, producer.Enters source → consumer.Enters target →
          ∀ path location, target.ReadsAt path location → source.WritesTo location := by
  constructor
  · intro h producer consumer hadjacent source target hsource htarget path location hread
    by_contra hno
    exact h ⟨producer.stage, consumer.stage, path, location⟩
      ⟨producer, consumer, source, target, hadjacent, rfl, rfl, hsource, htarget, hread, hno⟩
  · intro h use huse
    obtain ⟨producer, consumer, source, target, hadjacent, -, -, hsource, htarget, hread, hno⟩ := huse
    exact hno (h producer consumer hadjacent source target hsource htarget _ _ hread)

def fault (use : InputUse) : InterfaceFault := .unwritten use.consumer use.producer use.location

/-- The unmatched uses between two units. -/
def between (producer consumer : StageUnit) : List InputUse :=
  match producer.entryPoint?, consumer.entryPoint? with
  | some source, some target =>
    (target.inputs.filter fun input => !source.writes.contains input.2).map fun input =>
      ⟨producer.stage, consumer.stage, input.1, input.2⟩
  | _, _ => []

theorem map_fault_between (producer consumer : StageUnit) :
    (between producer consumer).map fault = unmatched producer consumer := by
  unfold between unmatched
  cases producer.entryPoint? with
  | none => rfl
  | some source =>
    cases consumer.entryPoint? with
    | none => rfl
    | some target =>
      dsimp only
      rw [← target.map_inputs, List.filter_map, List.map_map, List.map_map]
      rfl

theorem mem_between {producer consumer : StageUnit} {use : InputUse} :
    use ∈ between producer consumer ↔ ∃ source target,
      producer.stage = use.producer ∧ consumer.stage = use.consumer ∧
      producer.Enters source ∧ consumer.Enters target ∧
      target.ReadsAt use.path use.location ∧ ¬source.WritesTo use.location := by
  unfold between
  simp only [← StageUnit.entryPoint?_eq_some]
  cases producer.entryPoint? with
  | none => simp
  | some source =>
    cases consumer.entryPoint? with
    | none => simp
    | some target =>
      rw [List.mem_map]
      constructor
      · intro h
        obtain ⟨⟨path, location⟩, hinput, heq⟩ := h
        subst heq
        obtain ⟨hread, hunwritten⟩ := List.mem_filter.mp hinput
        refine ⟨source, target, rfl, rfl, rfl, rfl, (target.lists_inputs.mem_iff _ _).mp hread, ?_⟩
        rw [← EntryPoint.mem_writes]
        simpa using hunwritten
      · intro h
        obtain ⟨writer, reader, hproducer, hconsumer, hwriter, hreader, hread, hunwritten⟩ := h
        obtain rfl := Option.some.inj hwriter
        obtain rfl := Option.some.inj hreader
        rw [← EntryPoint.mem_writes] at hunwritten
        refine ⟨(use.path, use.location), ?_, by rw [hproducer, hconsumer]⟩
        apply List.mem_filter.mpr
        refine ⟨(target.lists_inputs.mem_iff _ _).mpr hread, ?_⟩
        simpa using hunwritten

theorem pairwise_between (producer consumer : StageUnit) :
    (between producer consumer).Pairwise fun a b => a.position < b.position := by
  unfold between
  split
  · next source target _ _ =>
    apply List.pairwise_map.mpr
    refine (target.lists_inputs.sorted.filter _).imp ?_
    intro a b hlt
    exact List.cons_lt_cons_iff.mpr (.inr ⟨rfl, hlt⟩)
  · exact List.Pairwise.nil

/-- The unmatched uses of units in pipeline order. -/
def all (units : List StageUnit) : List InputUse :=
  (units.zip units.tail).flatMap fun pair => between pair.1 pair.2

variable {units : List StageUnit}

theorem mem_all (h : units.Pairwise fun a b => a.stage.index < b.stage.index) {use : InputUse} :
    use ∈ all units ↔ use.Unmatched units := by
  unfold all Unmatched
  rw [List.mem_flatMap, Prod.exists]
  apply exists_congr
  intro producer
  apply exists_congr
  intro consumer
  rw [mem_zip_tail h, mem_between]
  simp only [exists_and_left]

theorem pairwise_all (h : units.Pairwise fun a b => a.stage.index < b.stage.index) :
    (all units).Pairwise fun a b => a.position < b.position := by
  apply List.pairwise_flatMap.mpr
  refine ⟨fun pair _ => pairwise_between _ _, ?_⟩
  -- each unit but the first is the consumer of one pair
  have hconsumers : (units.zip units.tail).map Prod.snd = units.tail := by
    apply List.map_snd_zip
    rw [List.length_tail]
    omega
  have hpairs : (units.zip units.tail).Pairwise fun a b => a.2.stage.index < b.2.stage.index := by
    have htail := h.tail
    rw [← hconsumers, List.pairwise_map] at htail
    exact htail
  refine hpairs.imp ?_
  intro a b hlt x hx y hy
  obtain ⟨-, -, -, hxconsumer, -⟩ := mem_between.mp hx
  obtain ⟨-, -, -, hyconsumer, -⟩ := mem_between.mp hy
  apply List.cons_lt_cons_iff.mpr
  left
  rw [← hxconsumer, ← hyconsumer]
  exact hlt

end InputUse

/-- The stages of the units that have no entry point. -/
def withoutEntry (units : List StageUnit) : List Stage :=
  (units.filter fun u => u.entryPoint?.isNone).map (·.stage)

theorem mem_withoutEntry {units : List StageUnit} {stage : Stage} :
    stage ∈ withoutEntry units ↔ ∃ u ∈ units, u.stage = stage ∧ ¬∃ e, u.Enters e := by
  unfold withoutEntry
  simp only [List.mem_map, List.mem_filter, StageUnit.isNone_entryPoint?, and_assoc]
  apply exists_congr
  intro u
  apply and_congr_right
  intro _
  exact and_comm

theorem pairwise_withoutEntry {units : List StageUnit}
    (h : units.Pairwise fun a b => a.stage.index < b.stage.index) :
    (withoutEntry units).Pairwise fun s t => s.index < t.index :=
  List.pairwise_map.mpr (h.filter _)

theorem interfaceFaults_eq (units : List StageUnit) :
    interfaceFaults units = (withoutEntry units).map .missingEntry ++
      (InputUse.all units).map InputUse.fault := by
  unfold interfaceFaults withoutEntry InputUse.all
  rw [List.map_map, List.map_flatMap]
  simp only [InputUse.map_fault_between]
  rfl

/-- Every fault is one line of the log. -/
theorem InterfaceFault.count_line (fault : InterfaceFault) : fault.line.toList.count '\n' = 1 := by
  have hlabel (stage : Stage) : stage.label.toList.count '\n' = 0 := by
    cases stage <;> decide
  have hnumber (n : Nat) : (toString n).toList.count '\n' = 0 := by
    apply List.count_eq_zero.mpr
    intro hmem
    exact absurd (Text.isDigit_of_mem_number hmem) (by decide)
  cases fault with
  | missingEntry stage =>
    change ("ERROR: Linking " ++ stage.label ++ " stage: Missing entry point\n").toList.count '\n' = 1
    rw [String.toList_append, String.toList_append, List.count_append, List.count_append, hlabel]
    decide
  | unwritten consumer producer location =>
    change (("ERROR: Linking " ++ consumer.label ++ " stage: input at location " ++
        toString location.toNat ++ " ") ++
      ("is not written by the " ++ producer.label ++ " stage\n")).toList.count '\n' = 1
    simp only [String.toList_append, List.count_append, hlabel, hnumber]
    decide

namespace ProgramObject

/-- Linking again changes nothing. -/
theorem link_link (p : ProgramObject) : p.link.link = p.link := by
  have hunits : p.link.link.units = p.link.units := by
    apply List.mergeSort_of_pairwise
    refine p.pairwise_units_link.imp ?_
    intro a b hle
    exact decide_eq_true hle
  have hfaults : p.link.link.faults = p.link.faults := by
    change interfaceFaults p.link.link.units = interfaceFaults p.link.units
    rw [hunits]
  change ⟨p.link.link.units, p.link.link.faults, p.live⟩ = p.link
  rw [hunits, hfaults]
  rfl

theorem count_log (p : ProgramObject) : p.log.toList.count '\n' = p.faults.length := by
  unfold log
  induction p.faults with
  | nil => rfl
  | cons fault faults ih =>
    rw [List.map_cons, String.join_cons, String.toList_append, List.count_append, fault.count_line, ih,
      List.length_cons]
    omega

theorem isLinked_iff (p : ProgramObject) : p.isLinked = true ↔ p.faults = [] := List.isEmpty_iff

theorem isLinked_iff_log (p : ProgramObject) : p.isLinked = true ↔ p.log = "" := by
  rw [isLinked_iff]
  constructor
  · intro h
    unfold log
    rw [h]
    rfl
  · intro h
    have hcount := p.count_log
    rw [h] at hcount
    exact List.length_eq_zero_iff.mp hcount.symm

/-- Units of different stages link if and only if each has an entry point of its stage and reads nothing
that the stage before it does not write. The log has a line for each stage without an entry point and then
one for each place where an unwritten location is read, in pipeline order. It is empty if and only if
linking succeeds, and linking again changes neither. -/
theorem link_exact {p : ProgramObject} (hstages : (p.units.map (·.stage)).Nodup) :
    (p.link.isLinked = true ↔
      (∀ u ∈ p.units, ∃ e, u.Enters e) ∧
      ∀ producer consumer, Adjacent p.units producer consumer →
        ∀ source target, producer.Enters source → consumer.Enters target →
          ∀ path location, target.ReadsAt path location → source.WritesTo location) ∧
    (∃ (missing : List Stage) (uses : List InputUse),
      missing.Pairwise (fun s t => s.index < t.index) ∧
      (∀ stage, stage ∈ missing ↔ ∃ u ∈ p.units, u.stage = stage ∧ ¬∃ e, u.Enters e) ∧
      uses.Pairwise (fun a b => a.position < b.position) ∧
      (∀ use, use ∈ uses ↔ use.Unmatched p.units) ∧
      p.link.log =
        String.join (missing.map fun stage =>
          s!"ERROR: Linking {stage.label} stage: Missing entry point\n") ++
        String.join (uses.map fun use =>
          s!"ERROR: Linking {use.consumer.label} stage: input at location {use.location.toNat} " ++
            s!"is not written by the {use.producer.label} stage\n") ∧
      p.link.log.toList.count '\n' = missing.length + uses.length) ∧
    (p.link.isLinked = true ↔ p.link.log = "") ∧
    p.link.link.isLinked = p.link.isLinked ∧ p.link.link.log = p.link.log := by
  have hsorted := pairwise_pipeline p.units
  -- the answer and the log are both read off the faults of the sorted units
  have hfaults : p.link.faults = (withoutEntry (pipeline p.units)).map .missingEntry ++
      (InputUse.all (pipeline p.units)).map InputUse.fault := by
    rw [← interfaceFaults_eq, ← units_link hstages]
    rfl
  have hmissing : ∀ stage, stage ∈ withoutEntry (pipeline p.units) ↔
      ∃ u ∈ p.units, u.stage = stage ∧ ¬∃ e, u.Enters e := by
    intro stage
    simp only [mem_withoutEntry, mem_pipeline hstages]
  have huses : ∀ use, use ∈ InputUse.all (pipeline p.units) ↔ use.Unmatched p.units := by
    intro use
    rw [InputUse.mem_all hsorted]
    simp only [InputUse.Unmatched, Adjacent, mem_pipeline hstages]
  refine ⟨?_, ⟨withoutEntry (pipeline p.units), InputUse.all (pipeline p.units),
    pairwise_withoutEntry hsorted, hmissing, InputUse.pairwise_all hsorted, huses, ?_, ?_⟩,
    p.link.isLinked_iff_log, ?_, ?_⟩
  · rw [isLinked_iff, hfaults, List.append_eq_nil_iff, List.map_eq_nil_iff, List.map_eq_nil_iff,
      List.eq_nil_iff_forall_not_mem, List.eq_nil_iff_forall_not_mem]
    simp only [hmissing, huses]
    refine and_congr ?_ InputUse.not_unmatched_iff
    constructor
    · intro h u hu
      by_contra hno
      exact h u.stage ⟨u, hu, rfl, hno⟩
    · intro h stage hstage
      obtain ⟨u, hu, -, hno⟩ := hstage
      exact hno (h u hu)
  · unfold log
    rw [hfaults, List.map_append, String.join_append, List.map_map, List.map_map]
    rfl
  · rw [count_log, hfaults, List.length_append, List.length_map, List.length_map]
  · rw [link_link]
  · rw [link_link]

end ProgramObject

/-- A pixel stage that reads location 2 twice, once inside of a structure in a structure, a compute stage
without an entry point, and a vertex stage that writes location 0 only. -/
def lagoonUnit : Stage → StageUnit
  | .pixel =>
    ⟨.pixel, [], [⟨.pixel,
      [(.vector 4 ⟨.float, 4⟩, some .builtin),
        (.struct (.cons "uv" 0 (some (.location 0)) (.vector 2 ⟨.float, 4⟩)
          (.cons "inner" 8 none
            (.struct (.cons "glow" 0 (some (.location 2)) (.scalar ⟨.float, 4⟩) .nil)) .nil)), none),
        (.scalar ⟨.float, 4⟩, some (.location 2))], none⟩], .ok []⟩
  | .vertex =>
    ⟨.vertex, [], [⟨.vertex, [], some (.vector 2 ⟨.float, 4⟩, some (.location 0))⟩], .ok []⟩
  | stage => ⟨stage, [], [], .ok []⟩

def lagoon : List StageUnit := [lagoonUnit .pixel, lagoonUnit .compute, lagoonUnit .vertex]

theorem lagoon_link :
    (ProgramObject.assemble lagoon).link.isLinked = false ∧
    (ProgramObject.assemble lagoon).link.log =
      "ERROR: Linking Compute stage: Missing entry point\n" ++
      "ERROR: Linking Pixel/Fragment stage: input at location 2 is not written by the Vertex stage\n" ++
      "ERROR: Linking Pixel/Fragment stage: input at location 2 is not written by the Vertex stage\n" := by
  have hunits : (ProgramObject.assemble lagoon).units = lagoon := by rw [ProgramObject.assemble_eq]
  have hstages : ((ProgramObject.assemble lagoon).units.map (·.stage)).Nodup := by
    rw [hunits]
    decide
  obtain ⟨hlinked, -⟩ := ProgramObject.link_exact hstages
  constructor
  · apply Bool.eq_false_iff.mpr
    intro h
    obtain ⟨e, hpossible, hstage, before, after, hsplit, -⟩ :=
      (hlinked.mp h).1 (lagoonUnit .compute) (by rw [hunits]; simp [lagoon])
    simp [lagoonUnit] at hsplit
  · have hfaults : interfaceFaults (pipeline lagoon) =
        [.missingEntry .compute, .unwritten .pixel .vertex 2, .unwritten .pixel .vertex 2] := by
      decide
    rw [ProgramObject.link_assemble (by decide), hfaults]
    decide +kernel

end EffectLink
