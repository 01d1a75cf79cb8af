import EffectLink.Artifact.Record

namespace EffectLink.Wire

/-- `c` stands at a place of `input`, and has the rest of it before it. -/
structure Cursor.On (input : Bytes) (c : Cursor) : Prop where
  within : c.position ≤ input.length
  rest : c.rest = input.drop c.position

theorem Cursor.on_start (input : Bytes) : (Cursor.start input).On input := ⟨Nat.zero_le _, rfl⟩

/-- What was read and what is left make up the input. -/
theorem Cursor.On.remaining_eq {input : Bytes} {c : Cursor} (h : c.On input) :
    c.remaining = input.length - c.position := by
  rw [remaining, h.rest, List.length_drop]

/-- The place that a fault names. -/
def Fault.offset? : Fault → Option Nat
  | .truncated offset _ => some offset
  | .badTag offset _ _ => some offset
  | .notText offset => some offset
  | .badBool offset _ => some offset
  | .badKind offset _ => some offset
  | .unaligned offset _ => some offset
  | .trailing _ => none

/-- The place that a fault names, if it names one, is at most `length`. -/
def Fault.Within (length : Nat) (fault : Fault) : Prop := ∀ offset ∈ fault.offset?, offset ≤ length

theorem Fault.within_of_offset {length offset : Nat} {fault : Fault}
    (h : fault.offset? = some offset) (hle : offset ≤ length) : fault.Within length := by
  intro other hother
  rw [h] at hother
  exact Option.mem_some_iff.mp hother ▸ hle

section Steps

variable {α β : Type} {input : Bytes}

/-- From a cursor on `input`, `r` comes to a cursor on `input`, and its fault names a place of `input`. -/
def Safe (input : Bytes) (r : Read α) : Prop :=
  ∀ ⦃c⦄, c.On input →
    (r c).2.On input ∧ ∀ ⦃fault⦄, (r c).1 = .error fault → fault.Within input.length

theorem safe_pure (a : α) : Safe input (pure a : Read α) :=
  fun _ hc => ⟨hc, fun _ hfault => nomatch hfault⟩

theorem safe_fail {fault : Fault} (h : fault.Within input.length) :
    Safe input (Read.fail fault : Read α) := by
  intro c hc
  refine ⟨hc, fun other hother => ?_⟩
  obtain rfl : fault = other := Except.error.inj hother
  exact h

theorem Safe.bind {r : Read α} {f : α → Read β} (hr : Safe input r)
    (hf : ∀ a, Safe input (f a)) : Safe input (r >>= f) := by
  intro c hc
  obtain ⟨hmid, hfault⟩ := hr hc
  change (Read.bind r f c).2.On input ∧ ∀ ⦃fault⦄, (Read.bind r f c).1 = _ → _
  unfold Read.bind
  rcases hstep : r c with ⟨outcome, mid⟩
  rw [hstep] at hmid hfault
  cases outcome with
  | error fault =>
    -- what follows is not run, so both facts are those of the first step
    refine ⟨hmid, fun other hother => hfault ?_⟩
    rw [Except.error.inj hother]
  | ok a => exact hf a hmid

theorem Safe.map {r : Read α} (hr : Safe input r) (g : α → β) :
    Safe input (r >>= fun a => pure (g a)) :=
  hr.bind fun a => safe_pure (g a)

/-- What follows may rely on the position being one of the input. -/
theorem safe_position_bind {f : Nat → Read α} (hf : ∀ n ≤ input.length, Safe input (f n)) :
    Safe input (Read.position >>= f) :=
  fun c hc => hf c.position hc.within hc

theorem bytes_of_short {n : Nat} {c : Cursor} (h : c.remaining < n) :
    Read.bytes n c = (.error (.truncated c.position (n - c.remaining)), c) :=
  if_pos h

theorem bytes_of_long {n : Nat} {c : Cursor} (h : n ≤ c.remaining) :
    Read.bytes n c = (.ok (c.rest.take n), ⟨c.rest.drop n, c.position + n⟩) :=
  if_neg (Nat.not_lt.mpr h)

/-- The bytes that are taken lie inside the input. -/
theorem Cursor.On.position_add_le {n : Nat} {c : Cursor} (hc : c.On input) (h : n ≤ c.remaining) :
    c.position + n ≤ input.length := by
  have hwithin := hc.within
  have hremaining := hc.remaining_eq
  omega

/-- Bytes that are taken are the input's from the position on. -/
theorem Cursor.On.bytes_eq_ok {n : Nat} {c : Cursor} {taken : Bytes} (hc : c.On input)
    (h : (Read.bytes n c).1 = .ok taken) :
    c.position + n ≤ input.length ∧ taken = (input.drop c.position).take n ∧
      (Read.bytes n c).2.position = c.position + n := by
  by_cases hlong : n ≤ c.remaining
  · rw [bytes_of_long hlong] at h ⊢
    refine ⟨hc.position_add_le hlong, ?_, rfl⟩
    rw [← hc.rest]
    exact (Except.ok.inj h).symm
  · rw [bytes_of_short (Nat.lt_of_not_le hlong)] at h
    cases h

/-- Bytes that cannot be taken leave the cursor where it is. -/
theorem bytes_eq_error {n : Nat} {c : Cursor} {fault : Fault}
    (h : (Read.bytes n c).1 = .error fault) : (Read.bytes n c).2 = c := by
  by_cases hlong : n ≤ c.remaining
  · rw [bytes_of_long hlong] at h
    cases h
  · rw [bytes_of_short (Nat.lt_of_not_le hlong)]

theorem safe_bytes (n : Nat) : Safe input (Read.bytes n) := by
  intro c hc
  by_cases hlong : n ≤ c.remaining
  · rw [bytes_of_long hlong]
    refine ⟨⟨hc.position_add_le hlong, ?_⟩, fun fault hfault => nomatch hfault⟩
    change c.rest.drop n = input.drop (c.position + n)
    rw [hc.rest, List.drop_drop]
  · rw [bytes_of_short (Nat.lt_of_not_le hlong)]
    refine ⟨hc, fun fault hfault => ?_⟩
    obtain rfl := Except.error.inj hfault
    exact Fault.within_of_offset rfl hc.within

theorem safe_items {item : Read α} (hitem : Safe input item) (n : Nat) :
    Safe input (Read.items item n) := by
  induction n with
  | zero => exact safe_pure []
  | succ n ih => exact hitem.bind fun first => ih.map (first :: ·)

end Steps

section Values

variable {input : Bytes}

theorem safe_bool : Safe input Read.bool := by
  refine safe_position_bind fun offset hoffset => (safe_bytes 1).bind fun taken => ?_
  split
  · exact safe_pure false
  · exact safe_pure true
  · exact safe_fail (Fault.within_of_offset rfl hoffset)

theorem safe_word : Safe input Read.word := (safe_bytes 4).map Read.assemble

theorem safe_int : Safe input Read.int := safe_word.map UInt32.toInt32

theorem safe_longWord : Safe input Read.longWord := (safe_bytes 8).map _

theorem safe_count : Safe input Read.count := safe_word.map UInt32.toNat

theorem safe_counted {α : Type} {item : Read α} (hitem : Safe input item) :
    Safe input (Read.counted item) :=
  safe_count.bind fun n => safe_items hitem n

theorem safe_text : Safe input Read.text := by
  refine safe_count.bind fun length => safe_position_bind fun offset hoffset => ?_
  refine (safe_bytes length).bind fun taken => ?_
  cases Utf8.decode? taken with
  | none => exact safe_fail (Fault.within_of_offset rfl hoffset)
  | some value => exact safe_pure value

theorem safe_tag : Safe input Read.tag := by
  refine (safe_bytes 4).bind fun taken => ?_
  split
  · exact safe_pure _
  · exact safe_pure _

theorem safe_expectTag (expected : Tag) : Safe input (Read.expectTag expected) := by
  refine safe_position_bind fun offset hoffset => safe_tag.bind fun found => ?_
  split
  · exact safe_pure ()
  · exact safe_fail (Fault.within_of_offset rfl hoffset)

theorem safe_words : Safe input Read.words := by
  refine safe_position_bind fun offset hoffset => safe_word.bind fun length => ?_
  split
  · exact (safe_bytes length.toNat).map Read.grouped
  · exact safe_fail (Fault.within_of_offset rfl hoffset)

theorem safe_value {offset : Nat} (h : offset ≤ input.length) (kind : UInt32) :
    Safe input (Read.value offset kind) := by
  unfold Read.value
  split
  · exact safe_int.map AnnotationValue.int
  · exact safe_word.map AnnotationValue.uint
  · exact safe_word.map AnnotationValue.float
  · exact safe_longWord.map AnnotationValue.double
  · exact safe_bool.map AnnotationValue.bool
  · exact safe_text.map AnnotationValue.text
  · exact safe_fail (Fault.within_of_offset rfl h)

theorem safe_entry : Safe input Read.entry := by
  refine safe_position_bind fun offset hoffset => safe_word.bind fun kind => ?_
  exact safe_text.bind fun key => (safe_value hoffset kind).map (AnnotationEntry.mk key)

theorem safe_entries : Safe input Read.entries := by
  refine safe_bool.bind fun present => ?_
  cases present with
  | false => exact safe_pure none
  | true => exact (safe_counted safe_entry).map some

theorem safe_binding : Safe input Read.binding :=
  safe_text.bind fun interface => safe_text.map (interface, ·)

theorem safe_stage (s : Stage) : Safe input (Read.stage s) := by
  refine (safe_expectTag s.tag).bind fun _ => safe_text.bind fun name => ?_
  exact (safe_counted safe_binding).bind fun bindings => safe_words.map _

theorem safe_offset : Safe input Read.offset :=
  safe_text.bind fun name => safe_word.map (name, ·)

theorem safe_record : Safe input Read.record := by
  unfold Read.record
  refine safe_text.bind fun name => safe_entries.bind fun annotated => ?_
  refine safe_bool.bind fun hasHull => safe_word.bind fun patchSize => ?_
  refine safe_count.bind fun inputs => safe_count.bind fun outputs => ?_
  refine (safe_items safe_word inputs).bind fun vertexInputs => ?_
  refine (safe_items safe_word outputs).bind fun pixelOutputs => ?_
  refine safe_bool.bind fun hasGeometry => ?_
  refine (safe_stage .vertex).bind fun vertex => (safe_stage .hull).bind fun hull => ?_
  refine (safe_stage .domain).bind fun domain => (safe_stage .geometry).bind fun geometry => ?_
  refine (safe_stage .pixel).bind fun pixel => (safe_stage .compute).bind fun compute => ?_
  refine (safe_counted safe_text).bind fun blocks => ?_
  refine (safe_counted safe_text).bind fun uniforms => ?_
  refine (safe_counted safe_offset).bind fun offsets => ?_
  exact (safe_expectTag renderStateTag).bind fun _ => safe_text.map _

end Values

/-- What can be asked of a reader. A float is read as a word and a double as a long word. -/
inductive Operation where
  | bool
  | int
  | word
  | longWord
  | count
  | text
  | tag
  | words
  | bytes (length : Nat)
  | expectTag (expected : Tag)

namespace Operation

/-- What an operation gives if nothing is at fault. -/
def Value : Operation → Type
  | bool => Bool
  | int => Int32
  | word => UInt32
  | longWord => UInt64
  | count => Nat
  | text => String
  | tag => Tag
  | words => List UInt32
  | bytes _ => Bytes
  | expectTag _ => Unit

def read : (op : Operation) → Read op.Value
  | bool => Read.bool
  | int => Read.int
  | word => Read.word
  | longWord => Read.longWord
  | count => Read.count
  | text => Read.text
  | tag => Read.tag
  | words => Read.words
  | bytes length => Read.bytes length
  | expectTag expected => Read.expectTag expected

/-- The cursor after `ops`, each at the place where the one before it stopped, with or without a fault. -/
def performAll (ops : List Operation) (c : Cursor) : Cursor :=
  ops.foldl (fun c op => (op.read c).2) c

theorem safe_read (input : Bytes) (op : Operation) : Safe input op.read := by
  cases op with
  | bool => exact safe_bool
  | int => exact safe_int
  | word => exact safe_word
  | longWord => exact safe_longWord
  | count => exact safe_count
  | text => exact safe_text
  | tag => exact safe_tag
  | words => exact safe_words
  | bytes length => exact safe_bytes length
  | expectTag expected => exact safe_expectTag expected

theorem on_performAll {input : Bytes} {c : Cursor} (h : c.On input) (ops : List Operation) :
    (performAll ops c).On input := by
  induction ops generalizing c with
  | nil => exact h
  | cons op ops ih => exact ih (op.safe_read input h).1

end Operation

end EffectLink.Wire
