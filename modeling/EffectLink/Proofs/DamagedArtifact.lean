import EffectLink.Proofs.CanonicalArtifact

/-! A step of reading that gives a value does not look past what it takes, so it gives the same
value in front of any other bytes, and on a part of what it takes it runs out of bytes first. -/

namespace EffectLink

namespace Wire

section Steps

variable {α β : Type}

/-- What comes of reading `part`, the beginning of `taken`: it ends with a fault that asks for at least
one byte and for no more than `taken` has. -/
def RunsShort (outcome : Except Fault α) (position : Nat) (part taken : Bytes) : Prop :=
  ∃ offset needed, outcome = .error (.truncated offset needed) ∧
    offset ≤ position + part.length ∧ 1 ≤ needed ∧ part.length + needed ≤ taken.length

/-- At `position`, `r` gives `a` for `taken` whatever follows, and runs short on every part of it. -/
structure Settles (r : Read α) (position : Nat) (taken : Bytes) (a : α) : Prop where
  whole : ∀ rest, r ⟨taken ++ rest, position⟩ = (.ok a, ⟨rest, position + taken.length⟩)
  short : ∀ part, part <+: taken → part ≠ taken → RunsShort (r ⟨part, position⟩).1 position part taken

/-- Whenever `r` gives a value, what it has taken settles the value. -/
def Steady (r : Read α) : Prop :=
  ∀ ⦃c a next⦄, r c = (.ok a, next) → ∃ taken, c.Past taken next ∧ Settles r c.position taken a

theorem bind_of_ok {r : Read α} {f : α → Read β} {c next : Cursor} {a : α}
    (h : r c = (.ok a, next)) : (r >>= f) c = f a next := by
  change Read.bind r f c = _
  rw [Read.bind, h]

theorem bind_of_error {r : Read α} {f : α → Read β} {c : Cursor} {fault : Fault}
    (h : (r c).1 = .error fault) : ((r >>= f) c).1 = .error fault := by
  change (Read.bind r f c).1 = _
  unfold Read.bind
  rcases hstep : r c with ⟨outcome, next⟩
  rw [hstep] at h
  obtain rfl : outcome = .error fault := h
  rfl

/-- A part of two texts in a row ends in the first one, or it ends in the second one. -/
theorem part_of_append {part first second : Bytes} (h : part <+: first ++ second)
    (hne : part ≠ first ++ second) :
    (part <+: first ∧ part ≠ first) ∨
      ∃ more, part = first ++ more ∧ more <+: second ∧ more ≠ second := by
  by_cases hfirst : first <+: part
  · obtain ⟨more, rfl⟩ := hfirst
    refine Or.inr ⟨more, rfl, (List.prefix_append_right_inj first).mp h, ?_⟩
    rintro rfl
    exact hne rfl
  · rcases List.prefix_or_prefix_of_prefix h (List.prefix_append first second) with hpart | hpart
    · refine Or.inl ⟨hpart, ?_⟩
      rintro rfl
      exact hfirst hpart
    · exact absurd hpart hfirst

theorem Settles.bind {r : Read α} {f : α → Read β} {position : Nat} {first second : Bytes} {a : α}
    {b : β} (hr : Settles r position first a)
    (hf : Settles (f a) (position + first.length) second b) :
    Settles (r >>= f) position (first ++ second) b := by
  refine ⟨fun rest => ?_, fun part hpart hne => ?_⟩
  · rw [List.append_assoc, bind_of_ok (hr.whole _), hf.whole, List.length_append, Nat.add_assoc]
  rcases part_of_append hpart hne with ⟨hpart, hne⟩ | ⟨more, rfl, hmore, hne⟩
  · -- the first step meets the end already
    obtain ⟨offset, needed, herror, hoffset, hneeded, hlength⟩ := hr.short part hpart hne
    refine ⟨offset, needed, bind_of_error herror, hoffset, hneeded, ?_⟩
    rw [List.length_append]
    omega
  · -- the first step gets all of its bytes, so the end is met by what follows
    obtain ⟨offset, needed, herror, hoffset, hneeded, hlength⟩ := hf.short more hmore hne
    rw [bind_of_ok (hr.whole more)]
    refine ⟨offset, needed, herror, ?_, hneeded, ?_⟩
    · rw [List.length_append]
      omega
    · rw [List.length_append, List.length_append]
      omega

theorem Steady.bind {r : Read α} {f : α → Read β} (hr : Steady r) (hf : ∀ a, Steady (f a)) :
    Steady (r >>= f) := by
  intro c b next hread
  rcases hstep : r c with ⟨outcome, mid⟩
  cases outcome with
  | error fault =>
    have herror := bind_of_error (f := f) (congrArg Prod.fst hstep)
    rw [hread] at herror
    contradiction
  | ok a =>
    obtain ⟨first, hfirst, hr⟩ := hr hstep
    rw [bind_of_ok hstep] at hread
    obtain ⟨second, hsecond, hf⟩ := hf a hread
    rw [hfirst.position] at hf
    exact ⟨first ++ second, hfirst.trans hsecond, hr.bind hf⟩

theorem steady_pure (a : α) : Steady (pure a : Read α) := by
  intro c b next hread
  cases hread
  refine ⟨[], ⟨rfl, rfl⟩, fun rest => rfl, fun part hpart hne => ?_⟩
  exact absurd (List.prefix_nil.mp hpart) hne

theorem steady_fail (fault : Fault) : Steady (Read.fail fault : Read α) :=
  fun _ _ _ hread => nomatch congrArg Prod.fst hread

theorem Steady.map {r : Read α} (hr : Steady r) (g : α → β) :
    Steady (r >>= fun a => pure (g a)) :=
  hr.bind fun a => steady_pure (g a)

/-- The position is the same with more or fewer bytes after it. -/
theorem steady_position_bind {f : Nat → Read α} (hf : ∀ n, Steady (f n)) :
    Steady (Read.position >>= f) := by
  intro c a next hread
  obtain ⟨taken, hpast, hsettles⟩ := hf c.position hread
  exact ⟨taken, hpast, hsettles.whole, hsettles.short⟩

/-- The only step that meets the end. -/
theorem steady_bytes (n : Nat) : Steady (Read.bytes n) := by
  intro c a next hread
  obtain ⟨taken, hpast, htaken, hlength⟩ := exact_bytes n hread
  obtain rfl : taken = a := htaken
  refine ⟨taken, hpast, fun rest => reads_bytes taken hlength rest c.position, fun part hpart hne => ?_⟩
  have hshort : part.length < n := by
    have hle := hpart.length_le
    have hlt : part.length ≠ taken.length := fun heq => hne (hpart.eq_of_length heq)
    omega
  refine ⟨c.position, n - part.length, ?_, Nat.le_add_right _ _, ?_, ?_⟩
  · change (if part.length < n then _ else _ : Except Fault Bytes × Cursor).1 = _
    rw [if_pos hshort]
    rfl
  · omega
  · omega

theorem steady_items {item : Read α} (hitem : Steady item) (n : Nat) :
    Steady (Read.items item n) := by
  induction n with
  | zero => exact steady_pure []
  | succ n ih => exact hitem.bind fun first => ih.map (first :: ·)

end Steps

theorem steady_bool : Steady Read.bool := by
  refine steady_position_bind fun offset => (steady_bytes 1).bind fun taken => ?_
  split
  · exact steady_pure false
  · exact steady_pure true
  · exact steady_fail _

theorem steady_word : Steady Read.word := (steady_bytes 4).map Read.assemble

theorem steady_int : Steady Read.int := steady_word.map UInt32.toInt32

theorem steady_longWord : Steady Read.longWord := (steady_bytes 8).map _

theorem steady_count : Steady Read.count := steady_word.map UInt32.toNat

theorem steady_counted {α : Type} {item : Read α} (hitem : Steady item) :
    Steady (Read.counted item) :=
  steady_count.bind fun n => steady_items hitem n

theorem steady_text : Steady Read.text := by
  refine steady_count.bind fun length => steady_position_bind fun offset => ?_
  refine (steady_bytes length).bind fun taken => ?_
  cases Utf8.decode? taken with
  | none => exact steady_fail _
  | some value => exact steady_pure value

theorem steady_expectTag (expected : Tag) : Steady (Read.expectTag expected) := by
  have htag : Steady Read.tag := by
    refine (steady_bytes 4).bind fun taken => ?_
    split
    · exact steady_pure _
    · exact steady_pure _
  refine steady_position_bind fun offset => htag.bind fun found => ?_
  split
  · exact steady_pure ()
  · exact steady_fail _

theorem steady_words : Steady Read.words := by
  refine steady_position_bind fun offset => steady_word.bind fun length => ?_
  split
  · exact (steady_bytes length.toNat).map Read.grouped
  · exact steady_fail _

theorem steady_value (offset : Nat) (kind : UInt32) : Steady (Read.value offset kind) := by
  unfold Read.value
  split
  · exact steady_int.map AnnotationValue.int
  · exact steady_word.map AnnotationValue.uint
  · exact steady_word.map AnnotationValue.float
  · exact steady_longWord.map AnnotationValue.double
  · exact steady_bool.map AnnotationValue.bool
  · exact steady_text.map AnnotationValue.text
  · exact steady_fail _

theorem steady_entry : Steady Read.entry := by
  refine steady_position_bind fun offset => steady_word.bind fun kind => ?_
  exact steady_text.bind fun key => (steady_value offset kind).map (AnnotationEntry.mk key)

theorem steady_entries : Steady Read.entries := by
  refine steady_bool.bind fun present => ?_
  cases present with
  | false => exact steady_pure none
  | true => exact (steady_counted steady_entry).map some

theorem steady_binding : Steady Read.binding :=
  steady_text.bind fun interface => steady_text.map (interface, ·)

theorem steady_stage (s : Stage) : Steady (Read.stage s) := by
  refine (steady_expectTag s.tag).bind fun _ => steady_text.bind fun name => ?_
  exact (steady_counted steady_binding).bind fun bindings => steady_words.map _

theorem steady_offset : Steady Read.offset :=
  steady_text.bind fun name => steady_word.map (name, ·)

theorem steady_record : Steady Read.record := by
  unfold Read.record
  refine steady_text.bind fun name => steady_entries.bind fun annotated => ?_
  refine steady_bool.bind fun hasHull => steady_word.bind fun patchSize => ?_
  refine steady_count.bind fun inputs => steady_count.bind fun outputs => ?_
  refine (steady_items steady_word inputs).bind fun vertexInputs => ?_
  refine (steady_items steady_word outputs).bind fun pixelOutputs => ?_
  refine steady_bool.bind fun hasGeometry => ?_
  refine (steady_stage .vertex).bind fun vertex => (steady_stage .hull).bind fun hull => ?_
  refine (steady_stage .domain).bind fun domain => (steady_stage .geometry).bind fun geometry => ?_
  refine (steady_stage .pixel).bind fun pixel => (steady_stage .compute).bind fun compute => ?_
  refine (steady_counted steady_text).bind fun blocks => ?_
  refine (steady_counted steady_text).bind fun uniforms => ?_
  refine (steady_counted steady_offset).bind fun offsets => ?_
  exact (steady_expectTag renderStateTag).bind fun _ => steady_text.map _

end Wire

namespace Record

open Wire

/-- An artifact is taken as a whole. -/
theorem settles_of_decode {bytes : Bytes} {r : Record} (h : decode bytes = .ok r) :
    Settles Read.record 0 bytes r := by
  unfold decode at h
  rcases hread : Read.record (.start bytes) with ⟨outcome, c⟩
  rw [hread] at h
  cases outcome with
  | error fault => contradiction
  | ok record =>
    dsimp only at h
    split at h
    · next hend =>
      obtain rfl := Except.ok.inj h
      obtain ⟨taken, hpast, hsettles⟩ := steady_record hread
      have hall : bytes = taken ++ c.rest := hpast.rest
      rw [List.isEmpty_iff.mp hend, List.append_nil] at hall
      rw [hall]
      exact hsettles
    · contradiction

theorem decode_of_error {bytes : Bytes} {fault : Fault}
    (h : (Read.record ⟨bytes, 0⟩).1 = .error fault) : decode bytes = .error fault := by
  unfold decode Cursor.start
  rcases hread : Read.record ⟨bytes, 0⟩ with ⟨outcome, c⟩
  rw [hread] at h
  obtain rfl : outcome = .error fault := h
  rfl

/-- A part of an artifact is refused because bytes are missing. The fault is at a place inside the part,
and what it asks for is missing from the artifact. An artifact with bytes after it is refused because of
these bytes, and the fault says how many they are. -/
theorem decode_damaged {bytes : Bytes} {r : Record} (h : decode bytes = .ok r) :
    (∀ part, part <+: bytes → part ≠ bytes → ∃ offset needed,
      decode part = .error (.truncated offset needed) ∧ offset ≤ part.length ∧ 1 ≤ needed ∧
        part.length + needed ≤ bytes.length) ∧
    ∀ extra, extra ≠ [] → decode (bytes ++ extra) = .error (.trailing extra.length) := by
  have hsettles := settles_of_decode h
  refine ⟨fun part hpart hne => ?_, fun extra hextra => ?_⟩
  · obtain ⟨offset, needed, herror, hoffset, hneeded, hlength⟩ := hsettles.short part hpart hne
    rw [Nat.zero_add] at hoffset
    exact ⟨offset, needed, decode_of_error herror, hoffset, hneeded, hlength⟩
  · have hleft : (Cursor.mk extra (0 + bytes.length)).atEnd = false :=
      Bool.eq_false_iff.mpr fun hend => hextra (List.isEmpty_iff.mp hend)
    unfold decode Cursor.start
    rw [hsettles.whole extra]
    dsimp only
    rw [if_neg (Bool.eq_false_iff.mp hleft)]
    rfl

/-- The portal cut in the name of a binding, and with two bytes after it. -/
theorem decode_damaged_portal :
    decode portal.encode = .ok portal ∧
    portal.encode.take 65 <+: portal.encode ∧ portal.encode.take 65 ≠ portal.encode ∧
    (∃ offset needed, decode (portal.encode.take 65) = .error (.truncated offset needed) ∧
      offset ≤ 65 ∧ 1 ≤ needed ∧ 65 + needed ≤ portal.encode.length) ∧
    decode (portal.encode ++ [0, 0]) = .error (.trailing 2) := by
  have hread : decode portal.encode = .ok portal := decode_encode (by decide)
  have hpart : portal.encode.take 65 <+: portal.encode := List.take_prefix 65 _
  have hlength : (portal.encode.take 65).length = 65 := by decide
  have hne : portal.encode.take 65 ≠ portal.encode := by decide
  obtain ⟨hcut, hextended⟩ := decode_damaged hread
  obtain ⟨offset, needed, herror, hoffset, hneeded, hmissing⟩ := hcut _ hpart hne
  rw [hlength] at hoffset hmissing
  exact ⟨hread, hpart, hne, ⟨offset, needed, herror, hoffset, hneeded, hmissing⟩,
    hextended [0, 0] (List.cons_ne_nil _ _)⟩

end Record

end EffectLink
