import Mathlib.Algebra.GroupWithZero.Nat
import EffectLink.Proofs.CanonicalArtifact
import EffectLink.Proofs.SafeReading

/-! Reading is repeated with a trace, to speak of the items that are asked for: the outcome and the
cursor are those of reading, and each list leaves a note of its item reads. -/

namespace EffectLink

namespace Wire

section Lists

variable {α β : Type}

/-- Reads a list as `Read.items` does, and counts how often `item` is run. -/
def tallied (item : Read α) : Nat → Cursor → (Except Fault (List α) × Cursor) × Nat
  | 0, c => ((.ok [], c), 0)
  | n + 1, c =>
    match item c with
    | (.error fault, next) => ((.error fault, next), 1)
    | (.ok first, next) =>
      let more := tallied item n next
      ((more.1.1.map (first :: ·), more.1.2), more.2 + 1)

/-- The first item is the last one that is asked for, or the others are read behind it. -/
theorem tallied_succ (item : Read α) (n : Nat) (c : Cursor) :
    (∃ fault next, item c = (.error fault, next) ∧
      tallied item (n + 1) c = ((.error fault, next), 1)) ∨
    ∃ first next, item c = (.ok first, next) ∧
      tallied item (n + 1) c = (((tallied item n next).1.1.map (first :: ·),
        (tallied item n next).1.2), (tallied item n next).2 + 1) := by
  rw [tallied]
  rcases item c with ⟨outcome, next⟩
  cases outcome with
  | error fault => exact Or.inl ⟨fault, next, rfl, rfl⟩
  | ok first => exact Or.inr ⟨first, next, rfl, rfl⟩

theorem tallied_fst (item : Read α) (n : Nat) (c : Cursor) :
    (tallied item n c).1 = Read.items item n c := by
  induction n generalizing c with
  | zero => rfl
  | succ n ih =>
    change _ = Read.bind item (fun first => Read.bind (Read.items item n) fun more =>
      Read.pure (first :: more)) c
    rcases tallied_succ item n c with ⟨fault, next, hread, htally⟩ | ⟨first, next, hread, htally⟩
    · rw [htally, Read.bind, hread]
    · rw [htally, Read.bind, hread]
      dsimp only
      rw [Read.bind, ← ih next]
      rcases (tallied item n next).1 with ⟨outcome, last⟩
      cases outcome with
      | error fault => rfl
      | ok more => rfl

theorem tallied_le_count (item : Read α) (n : Nat) (c : Cursor) : (tallied item n c).2 ≤ n := by
  induction n generalizing c with
  | zero => exact Nat.le_refl 0
  | succ n ih =>
    rcases tallied_succ item n c with ⟨fault, next, -, htally⟩ | ⟨first, next, -, htally⟩
    · rw [htally]
      exact Nat.succ_le_succ (Nat.zero_le n)
    · rw [htally]
      exact Nat.succ_le_succ (ih next)

/-- An item takes at least four bytes. -/
def TakesFour (item : Read α) : Prop := Takes item fun _ taken => 4 ≤ taken.length

/-- Each item but the last one that is asked for has taken four bytes of what was left. -/
theorem TakesFour.tallied_le {item : Read α} (hitem : TakesFour item) (n : Nat) (c : Cursor) :
    (tallied item n c).2 ≤ c.remaining / 4 + 1 := by
  induction n generalizing c with
  | zero => exact Nat.zero_le _
  | succ n ih =>
    rcases tallied_succ item n c with ⟨fault, next, -, htally⟩ | ⟨first, next, hread, htally⟩
    · rw [htally]
      exact Nat.le_add_left 1 _
    · obtain ⟨taken, hpast, hfour⟩ := hitem hread
      have hleft : c.remaining = taken.length + next.remaining := by
        rw [Cursor.remaining, hpast.rest, List.length_append]
        rfl
      -- four bytes fewer are left for the others, which is one item fewer
      have hmore := ih next
      rw [htally]
      dsimp only
      omega

/-- Six bytes behind the largest number there is. -/
example : (tallied Read.word 4294967295 ⟨[1, 0, 0, 0, 2, 0], 0⟩).2 = 2 := by decide

/-- A list that is read to its end has as many items as were asked for. -/
theorem tallied_of_ok {item : Read α} {n : Nat} {c : Cursor} {values : List α}
    (h : (tallied item n c).1.1 = .ok values) : (tallied item n c).2 = values.length := by
  induction n generalizing c values with
  | zero =>
    obtain rfl : [] = values := Except.ok.inj h
    rfl
  | succ n ih =>
    rcases tallied_succ item n c with ⟨fault, next, -, htally⟩ | ⟨first, next, -, htally⟩
    · rw [htally] at h
      cases h
    · rw [htally] at h ⊢
      cases hmore : (tallied item n next).1.1 with
      | error fault =>
        rw [hmore] at h
        cases h
      | ok more =>
        rw [hmore] at h
        obtain rfl : first :: more = values := Except.ok.inj h
        exact congrArg (· + 1) (ih hmore)

/-- A list that was begun: the number in front of it, the bytes that were left at its first item, and the
items that were asked for. -/
structure ListVisit where
  count : Nat
  remaining : Nat
  reads : Nat
  deriving DecidableEq

/-- The items that are asked for are bounded by the number, and by the bytes whatever the number is. -/
def ListVisit.Bounded (v : ListVisit) : Prop := v.reads ≤ v.count ∧ v.reads ≤ v.remaining / 4 + 1

/-- A step of reading that also gives the lists it has begun, in order. -/
def Traced (α : Type) : Type := Cursor → (Except Fault α × Cursor) × List ListVisit

namespace Traced

def pure (a : α) : Traced α := fun c => ((.ok a, c), [])

def bind (t : Traced α) (f : α → Traced β) : Traced β := fun c =>
  match t c with
  | ((.ok a, next), visits) => ((f a next).1, visits ++ (f a next).2)
  | ((.error fault, next), visits) => ((.error fault, next), visits)

instance : Monad Traced where
  pure := Traced.pure
  bind := Traced.bind

/-- A step that begins no list. -/
def plain (r : Read α) : Traced α := fun c => (r c, [])

def items (item : Read α) (n : Nat) : Traced (List α) := fun c =>
  ((tallied item n c).1, [⟨n, c.remaining, (tallied item n c).2⟩])

def counted (item : Read α) : Traced (List α) := do items item (← plain Read.count)

def entries : Traced (Option (List AnnotationEntry)) := do
  if ← plain Read.bool then return some (← counted Read.entry) else return none

def stage (s : Stage) : Traced StageRecord := do
  plain (Read.expectTag s.tag)
  return ⟨← plain Read.text, ← counted Read.binding, ← plain Read.words⟩

/-- A record is read step by step as `Read.record` does it; `erase_record` says that nothing else is
done. -/
def record : Traced Record := do
  let name ← plain Read.text
  let annotation ← entries
  let hasHull ← plain Read.bool
  let patchSize ← plain Read.word
  let inputs ← plain Read.count
  let outputs ← plain Read.count
  let vertexInputs ← items Read.word inputs
  let pixelOutputs ← items Read.word outputs
  let hasGeometry ← plain Read.bool
  let stages : PerStage StageRecord :=
    ⟨← stage .vertex, ← stage .hull, ← stage .domain, ← stage .geometry, ← stage .pixel,
      ← stage .compute⟩
  let blocks ← counted Read.text
  let uniforms ← counted Read.text
  let offsets ← counted Read.offset
  plain (Read.expectTag renderStateTag)
  let renderState ← plain Read.text
  return { name, annotation, hasHull, patchSize, vertexInputs, pixelOutputs, hasGeometry, stages,
           blocks, uniforms, offsets, renderState }

/-- The step without its trace. -/
def erase (t : Traced α) : Read α := fun c => (t c).1

theorem erase_pure (a : α) : (Pure.pure a : Traced α).erase = (Pure.pure a : Read α) := rfl

theorem erase_plain (r : Read α) : (plain r).erase = r := rfl

theorem erase_bind (t : Traced α) (f : α → Traced β) :
    (t >>= f).erase = t.erase >>= fun a => (f a).erase := by
  funext c
  change (Traced.bind t f c).1 = Read.bind t.erase (fun a => (f a).erase) c
  unfold Traced.bind Read.bind erase
  rcases t c with ⟨⟨outcome, next⟩, visits⟩
  cases outcome with
  | error fault => rfl
  | ok a => rfl

theorem erase_items (item : Read α) (n : Nat) : (items item n).erase = Read.items item n :=
  funext fun c => tallied_fst item n c

theorem erase_counted (item : Read α) : (counted item).erase = Read.counted item := by
  unfold counted
  simp only [erase_bind, erase_plain, erase_items]
  rfl

theorem erase_entries : entries.erase = Read.entries := by
  have hpresent (present : Bool) :
      (if present then counted Read.entry >>= fun entries => Pure.pure (some entries)
        else Pure.pure none : Traced (Option (List AnnotationEntry))).erase =
      (if present then Read.counted Read.entry >>= fun entries => Pure.pure (some entries)
        else Pure.pure none : Read (Option (List AnnotationEntry))) := by
    cases present with
    | false => rfl
    | true =>
      rw [if_pos rfl, if_pos rfl, erase_bind, erase_counted]
      rfl
  unfold entries
  rw [erase_bind, erase_plain]
  exact congrArg (Read.bool >>= ·) (funext hpresent)

theorem erase_stage (s : Stage) : (stage s).erase = Read.stage s := by
  unfold stage
  simp only [erase_bind, erase_plain, erase_counted, erase_pure]
  rfl

theorem erase_record : record.erase = Read.record := by
  unfold record
  simp only [erase_bind, erase_plain, erase_entries, erase_items, erase_stage, erase_counted,
    erase_pure]
  rfl

/-- Every list that `t` begins is bounded, and if `t` gives a value then `post` holds of the value and of
the item reads of these lists. -/
def Logs (t : Traced α) (post : α → List Nat → Prop) : Prop :=
  ∀ c, (∀ v ∈ (t c).2, v.Bounded) ∧ ∀ ⦃a⦄, (t c).1.1 = .ok a → post a ((t c).2.map (·.reads))

theorem logs_pure {a : α} {post : α → List Nat → Prop} (h : post a []) :
    Logs (Pure.pure a : Traced α) post := by
  intro c
  refine ⟨fun v hv => absurd hv List.not_mem_nil, fun b hb => ?_⟩
  obtain rfl : a = b := Except.ok.inj hb
  exact h

theorem Logs.bind {t : Traced α} {f : α → Traced β} {mid : α → List Nat → Prop}
    {post : β → List Nat → Prop} (ht : Logs t mid)
    (hf : ∀ a first, mid a first → Logs (f a) fun b more => post b (first ++ more)) :
    Logs (t >>= f) post := by
  intro c
  obtain ⟨hbounded, hmid⟩ := ht c
  change (∀ v ∈ (Traced.bind t f c).2, v.Bounded) ∧ ∀ ⦃b⦄, (Traced.bind t f c).1.1 = .ok b →
    post b ((Traced.bind t f c).2.map (·.reads))
  unfold Traced.bind
  rcases hstep : t c with ⟨⟨outcome, next⟩, visits⟩
  rw [hstep] at hbounded hmid
  cases outcome with
  | error fault => exact ⟨hbounded, fun b hb => nomatch hb⟩
  | ok a =>
    obtain ⟨hmore, hpost⟩ := hf a _ (hmid rfl) next
    refine ⟨fun v hv => ?_, fun b hb => ?_⟩
    · exact (List.mem_append.mp hv).elim (hbounded v) (hmore v)
    · dsimp only
      rw [List.map_append]
      exact hpost hb

theorem Logs.map {t : Traced α} {g : α → β} {mid : α → List Nat → Prop}
    {post : β → List Nat → Prop} (ht : Logs t mid) (h : ∀ a reads, mid a reads → post (g a) reads) :
    Logs (t >>= fun a => Pure.pure (g a)) post := by
  refine ht.bind fun a reads hmid => logs_pure ?_
  rw [List.append_nil]
  exact h a reads hmid

/-- A step that begins no list leaves no trace. -/
theorem logs_plain_bind {r : Read α} {f : α → Traced β} {post : β → List Nat → Prop}
    (hf : ∀ a, Logs (f a) post) : Logs (plain r >>= f) post := by
  have hplain : Logs (plain r) fun _ reads => reads = [] :=
    fun c => ⟨fun v hv => absurd hv List.not_mem_nil, fun _ _ => rfl⟩
  refine hplain.bind fun a first hfirst => ?_
  rw [hfirst]
  exact hf a

theorem logs_items {item : Read α} (hitem : TakesFour item) (n : Nat) :
    Logs (items item n) fun values reads => reads = [values.length] := by
  intro c
  refine ⟨fun v hv => ?_, fun values hvalues => ?_⟩
  · rw [List.mem_singleton.mp hv]
    exact ⟨tallied_le_count item n c, hitem.tallied_le n c⟩
  · exact congrArg (fun reads => [reads]) (tallied_of_ok hvalues)

theorem logs_counted {item : Read α} (hitem : TakesFour item) :
    Logs (counted item) fun values reads => reads = [values.length] :=
  logs_plain_bind fun n => logs_items hitem n

end Traced

end Lists

theorem Exact.takesFour {α : Type} {r : Read α} {write : α → Bytes} {fits : α → Prop}
    (h : Exact r write fits) (hlong : ∀ a, 4 ≤ (write a).length) : TakesFour r := by
  intro c a next hread
  obtain ⟨taken, hpast, htaken, -⟩ := h hread
  refine ⟨taken, hpast, ?_⟩
  rw [htaken]
  exact hlong a

theorem length_word (v : UInt32) : (word v).length = 4 := rfl

theorem length_count (n : Nat) : (count n).length = 4 := rfl

theorem four_le_text (s : String) : 4 ≤ (text s).length := by
  rw [text, List.length_append, length_count]
  exact Nat.le_add_right 4 _

theorem four_le_entry (e : AnnotationEntry) : 4 ≤ (entry e).length := by
  rw [entry, List.length_append, List.length_append, length_word]
  omega

theorem four_le_binding (b : String × String) : 4 ≤ (binding b).length := by
  have hinterface := four_le_text b.1
  rw [binding, List.length_append]
  omega

theorem four_le_offset (o : String × UInt32) : 4 ≤ (offset o).length := by
  have hname := four_le_text o.1
  rw [offset, List.length_append]
  omega

theorem takesFour_word : TakesFour Read.word :=
  exact_word.takesFour fun v => Nat.le_of_eq (length_word v).symm

theorem takesFour_text : TakesFour Read.text := exact_text.takesFour four_le_text

theorem takesFour_entry : TakesFour Read.entry := exact_entry.takesFour four_le_entry

theorem takesFour_binding : TakesFour Read.binding := exact_binding.takesFour four_le_binding

theorem takesFour_offset : TakesFour Read.offset := exact_offset.takesFour four_le_offset

end Wire

/-- The lengths of a record's lists, in the order in which they are read. -/
def Record.listLengths (r : Record) : List Nat :=
  (r.annotation.map List.length).toList ++
    [r.vertexInputs.length, r.pixelOutputs.length,
     r.stages.vertex.bindings.length, r.stages.hull.bindings.length,
     r.stages.domain.bindings.length, r.stages.geometry.bindings.length,
     r.stages.pixel.bindings.length, r.stages.compute.bindings.length,
     r.blocks.length, r.uniforms.length, r.offsets.length]

namespace Wire.Traced

theorem logs_entries :
    Logs entries fun a reads => reads = (a.map List.length).toList := by
  refine logs_plain_bind fun present => ?_
  cases present with
  | false => exact logs_pure rfl
  | true => exact (logs_counted takesFour_entry).map fun entries reads hreads => hreads

theorem logs_stage (s : Stage) :
    Logs (stage s) fun r reads => reads = [r.bindings.length] := by
  refine logs_plain_bind fun _ => logs_plain_bind fun name => ?_
  refine (logs_counted takesFour_binding).bind fun bindings first hfirst => ?_
  refine logs_plain_bind fun binary => logs_pure ?_
  rw [hfirst]
  rfl

/-- Each list of a record leaves its note, and no list is begun besides. -/
theorem logs_record : Logs record fun r reads => reads = r.listLengths := by
  unfold record
  refine logs_plain_bind fun name => ?_
  refine logs_entries.bind fun annotated entryReads hentries => ?_
  refine logs_plain_bind fun hasHull => logs_plain_bind fun patchSize => ?_
  refine logs_plain_bind fun inputs => logs_plain_bind fun outputs => ?_
  refine (logs_items takesFour_word inputs).bind fun vertexInputs inputReads hinputs => ?_
  refine (logs_items takesFour_word outputs).bind fun pixelOutputs outputReads houtputs => ?_
  refine logs_plain_bind fun hasGeometry => ?_
  refine (logs_stage .vertex).bind fun vertex vertexReads hvertex => ?_
  refine (logs_stage .hull).bind fun hull hullReads hhull => ?_
  refine (logs_stage .domain).bind fun domain domainReads hdomain => ?_
  refine (logs_stage .geometry).bind fun geometry geometryReads hgeometry => ?_
  refine (logs_stage .pixel).bind fun pixel pixelReads hpixel => ?_
  refine (logs_stage .compute).bind fun compute computeReads hcompute => ?_
  refine (logs_counted takesFour_text).bind fun blocks blockReads hblocks => ?_
  refine (logs_counted takesFour_text).bind fun uniforms uniformReads huniforms => ?_
  refine (logs_counted takesFour_offset).bind fun offsets offsetReads hoffsets => ?_
  refine logs_plain_bind fun _ => logs_plain_bind fun renderState => logs_pure ?_
  rw [hentries, hinputs, houtputs, hvertex, hhull, hdomain, hgeometry, hpixel, hcompute, hblocks,
    huniforms, hoffsets]
  rfl

end Wire.Traced

namespace Wire

theorem four_mul_le_flatMap {α : Type} {write : α → Bytes} (h : ∀ a, 4 ≤ (write a).length)
    (values : List α) : 4 * values.length ≤ (values.flatMap write).length := by
  induction values with
  | nil => exact Nat.le_refl 0
  | cons a values ih =>
    have hfirst := h a
    rw [List.flatMap_cons, List.length_append, List.length_cons]
    omega

theorem four_mul_le_list {α : Type} {write : α → Bytes} (h : ∀ a, 4 ≤ (write a).length)
    (values : List α) : 4 * values.length ≤ (list write values).length := by
  have hitems := four_mul_le_flatMap h values
  rw [list, List.length_append]
  omega

theorem four_mul_le_entries (a : Option (List AnnotationEntry)) :
    4 * (a.map List.length).toList.sum ≤ (entries a).length := by
  cases a with
  | none => exact Nat.zero_le _
  | some values =>
    have hvalues := four_mul_le_list four_le_entry values
    unfold entries
    rw [List.length_append]
    change 4 * (values.length + 0) ≤ _
    omega

theorem four_mul_le_stage (s : Stage) (r : StageRecord) :
    4 * (r.bindings.length + r.binary.length) ≤ (stage s r).length := by
  have hbindings := four_mul_le_list four_le_binding r.bindings
  have hbinary : 4 * r.binary.length ≤ (words r.binary).length := by
    rw [words, List.length_append, length_flatMap_word]
    omega
  rw [stage, List.length_append, List.length_append]
  omega

end Wire

namespace Record

open Wire

/-- The items of all lists of a record, the words of its binaries included. -/
def itemCount (r : Record) : Nat :=
  r.listLengths.sum + (Stage.all.map fun s => (r.stages.get s).binary.length).sum

theorem itemCount_eq (r : Record) :
    r.itemCount = (r.annotation.map List.length).toList.sum +
      (r.vertexInputs.length + r.pixelOutputs.length) +
      ((r.stages.vertex.bindings.length + r.stages.vertex.binary.length) +
       (r.stages.hull.bindings.length + r.stages.hull.binary.length) +
       (r.stages.domain.bindings.length + r.stages.domain.binary.length) +
       (r.stages.geometry.bindings.length + r.stages.geometry.binary.length) +
       (r.stages.pixel.bindings.length + r.stages.pixel.binary.length) +
       (r.stages.compute.bindings.length + r.stages.compute.binary.length)) +
      (r.blocks.length + r.uniforms.length + r.offsets.length) := by
  simp only [itemCount, listLengths, Stage.all, PerStage.get, List.sum_append, List.map_cons,
    List.map_nil, List.sum_cons, List.sum_nil]
  omega

theorem four_mul_itemCount_le (r : Record) : 4 * r.itemCount ≤ r.encode.length := by
  have hentries := four_mul_le_entries r.annotation
  have hinputs := length_flatMap_word r.vertexInputs
  have houtputs := length_flatMap_word r.pixelOutputs
  have hvertex := four_mul_le_stage .vertex r.stages.vertex
  have hhull := four_mul_le_stage .hull r.stages.hull
  have hdomain := four_mul_le_stage .domain r.stages.domain
  have hgeometry := four_mul_le_stage .geometry r.stages.geometry
  have hpixel := four_mul_le_stage .pixel r.stages.pixel
  have hcompute := four_mul_le_stage .compute r.stages.compute
  have hblocks := four_mul_le_list four_le_text r.blocks
  have huniforms := four_mul_le_list four_le_text r.uniforms
  have hoffsets := four_mul_le_list four_le_offset r.offsets
  unfold encode
  simp only [itemCount_eq, List.length_append]
  omega

theorem within_of_decode {input : Bytes} {fault : Fault} (h : decode input = .error fault) :
    fault.Within input.length := by
  obtain ⟨-, hfault⟩ := safe_record (Cursor.on_start input)
  unfold decode at h
  rcases hread : Read.record (.start input) with ⟨outcome, c⟩
  rw [hread] at h hfault
  cases outcome with
  | error other => exact hfault h
  | ok record =>
    dsimp only at h
    split at h
    · cases h
    · obtain rfl := Except.error.inj h
      exact fun offset hoffset => nomatch hoffset

theorem record_of_decode {input : Bytes} {r : Record} (h : decode input = .ok r) :
    (Read.record (.start input)).1 = .ok r := by
  obtain ⟨hfits, hbytes⟩ := decode_eq_ok.mp h
  have hread := reads_record hfits [] 0
  rw [List.append_nil] at hread
  rw [hbytes, Cursor.start, hread]

/-- Bytes of any kind are read safely. After any operations, with or without faults, the cursor is on the
input, and the bytes that are left are the true difference. Bytes that are taken lie inside the input, and
bytes that cannot be taken leave the cursor where it is. A fault names a place of the input. Whatever the
number in front of a list of a record says, the bytes that are left bound its item reads. The lists that
were begun for a record that is accepted are its lists, and all their items together are no more than a
quarter of the bytes. -/
theorem reading_safe (input : Bytes) :
    (∀ ops c, Operation.performAll ops (.start input) = c →
      c.position ≤ input.length ∧ c.rest = input.drop c.position ∧
      c.remaining = input.length - c.position ∧
      (∀ n taken, (Read.bytes n c).1 = .ok taken →
        c.position + n ≤ input.length ∧ taken = (input.drop c.position).take n ∧
        (Read.bytes n c).2.position = c.position + n) ∧
      (∀ n fault, (Read.bytes n c).1 = .error fault → (Read.bytes n c).2 = c) ∧
      ∀ (op : Operation) fault, (op.read c).1 = .error fault →
        ∀ offset ∈ fault.offset?, offset ≤ input.length) ∧
    (∀ fault, decode input = .error fault → ∀ offset ∈ fault.offset?, offset ≤ input.length) ∧
    Traced.record.erase = Read.record ∧
    (∀ visit ∈ (Traced.record (.start input)).2,
      visit.reads ≤ visit.count ∧ visit.reads ≤ visit.remaining / 4 + 1) ∧
    ∀ r, decode input = .ok r →
      (Traced.record (.start input)).2.map (·.reads) = r.listLengths ∧
      4 * r.itemCount ≤ input.length := by
  obtain ⟨hbounded, hlengths⟩ := Traced.logs_record (.start input)
  refine ⟨?_, fun fault hfault => within_of_decode hfault, Traced.erase_record, hbounded,
    fun r hr => ⟨hlengths ?_, ?_⟩⟩
  · rintro ops c rfl
    have hc := Operation.on_performAll (Cursor.on_start input) ops
    exact ⟨hc.within, hc.rest, hc.remaining_eq, fun n taken => hc.bytes_eq_ok,
      fun n fault => bytes_eq_error, fun op fault hfault => (op.safe_read input hc).2 hfault⟩
  · have herase := congrFun Traced.erase_record (.start input)
    rw [← record_of_decode hr, ← herase]
    rfl
  · rw [(decode_eq_ok.mp hr).2]
    exact r.four_mul_itemCount_le

end Record

end EffectLink
