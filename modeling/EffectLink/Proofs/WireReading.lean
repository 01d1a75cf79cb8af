import Mathlib.Algebra.Group.Nat.Defs
import EffectLink.Artifact.Record

namespace EffectLink.Wire

/-- In front of anything, `r` takes exactly `written` and gives `a`. -/
def Reads {α : Type} (r : Read α) (written : Bytes) (a : α) : Prop :=
  ∀ rest position, r ⟨written ++ rest, position⟩ = (.ok a, ⟨rest, position + written.length⟩)

section Steps

variable {α β : Type}

theorem reads_pure (a : α) : Reads (pure a : Read α) [] a := by
  intro rest position
  rfl

theorem Reads.bind {r : Read α} {f : α → Read β} {first second : Bytes} {a : α} {b : β}
    (hr : Reads r first a) (hf : Reads (f a) second b) :
    Reads (r >>= f) (first ++ second) b := by
  intro rest position
  change Read.bind r f _ = _
  rw [List.append_assoc, Read.bind, hr]
  change f a ⟨second ++ rest, position + first.length⟩ = _
  rw [hf, List.length_append, Nat.add_assoc]

/-- The last step of a sequence may take nothing and only look at what was read. -/
theorem Reads.bind_last {r : Read α} {f : α → Read β} {written : Bytes} {a : α} {b : β}
    (hr : Reads r written a) (hf : Reads (f a) [] b) : Reads (r >>= f) written b := by
  have h := hr.bind hf
  rwa [List.append_nil] at h

theorem Reads.map {r : Read α} {written : Bytes} {a : α} (hr : Reads r written a) (f : α → β) :
    Reads (r >>= fun x => pure (f x)) written (f a) :=
  hr.bind_last (reads_pure (f a))

/-- Asking for the position takes nothing, so what follows has to read at every position. -/
theorem reads_position_bind {f : Nat → Read α} {written : Bytes} {a : α}
    (hf : ∀ n, Reads (f n) written a) : Reads (Read.position >>= f) written a := by
  intro rest position
  change f position ⟨written ++ rest, position⟩ = _
  exact hf position rest position

theorem reads_bytes (written : Bytes) {n : Nat} (hn : written.length = n) :
    Reads (Read.bytes n) written written := by
  intro rest position
  subst hn
  have hlong : ¬(Cursor.mk (written ++ rest) position).remaining < written.length := by
    simp only [Cursor.remaining, List.length_append]
    omega
  simp only [Read.bytes, if_neg hlong, List.take_left, List.drop_left]

/-- Items that are read one by one are read in a row. -/
theorem reads_items {item : Read α} {write : α → Bytes} {values : List α}
    (h : ∀ a ∈ values, Reads item (write a) a) :
    Reads (Read.items item values.length) (values.flatMap write) values := by
  induction values with
  | nil => exact reads_pure []
  | cons a values ih =>
    have hfirst : Reads item (write a) a := h a List.mem_cons_self
    have hmore := ih fun b hb => h b (List.mem_cons_of_mem a hb)
    exact hfirst.bind (hmore.map (a :: ·))

end Steps

theorem assemble_word (v : UInt32) : Read.assemble (word v) = v := by
  apply UInt32.eq_of_toBitVec_eq
  apply BitVec.eq_of_getLsbD_eq
  intro i hi
  -- a bit comes from the byte that has its place, so exactly one of the four terms counts
  have hbits : (Read.assemble (word v)).toBitVec.getLsbD i =
      (decide (i < 8) && v.toBitVec.getLsbD i ||
        !decide (i < 8) && (decide (i - 8 < 8) && v.toBitVec.getLsbD (8 + (i - 8))) ||
        !decide (i < 16) && (decide (i - 16 < 8) && v.toBitVec.getLsbD (16 + (i - 16))) ||
        !decide (i < 24) && (decide (i - 24 < 8) && v.toBitVec.getLsbD (24 + (i - 24)))) := by
    have h8 : i - 8 < 32 := by omega
    have h16 : i - 16 < 32 := by omega
    have h24 : i - 24 < 32 := by omega
    simp only [word, Read.assemble, UInt32.toBitVec_or, UInt32.toBitVec_shiftLeft,
      UInt8.toBitVec_toUInt32, UInt32.toBitVec_toUInt8, UInt32.toBitVec_shiftRight]
    simp [hi, h8, h16, h24]
  rw [hbits]
  grind

/-- The halves of a long word make it up again. -/
theorem halves_longWord (v : UInt64) :
    v.toUInt32.toUInt64 ||| ((v >>> 32).toUInt32.toUInt64 <<< 32) = v := by
  apply UInt64.eq_of_toBitVec_eq
  apply BitVec.eq_of_getLsbD_eq
  intro i hi
  simp only [UInt64.toBitVec_or, UInt64.toBitVec_shiftLeft, UInt32.toBitVec_toUInt64,
    UInt64.toBitVec_toUInt32, UInt64.toBitVec_shiftRight, BitVec.getLsbD_or,
    BitVec.getLsbD_setWidth]
  by_cases h : i < 32
  · simp [h, hi]
  · have hback : 32 + (i - 32) = i := by omega
    have hlow : i - 32 < 32 := by omega
    simp [h, hi, hlow, hback]

theorem reads_bool (v : Bool) : Reads Read.bool (bool v) v := by
  apply reads_position_bind
  intro n
  cases v with
  | false => exact (reads_bytes [0] rfl).bind_last (reads_pure false)
  | true => exact (reads_bytes [1] rfl).bind_last (reads_pure true)

theorem reads_word (v : UInt32) : Reads Read.word (word v) v := by
  have h := (reads_bytes (word v) (n := 4) rfl).map Read.assemble
  rwa [assemble_word] at h

theorem reads_int (v : Int32) : Reads Read.int (int v) v := by
  have h := (reads_word v.toUInt32).map UInt32.toInt32
  rwa [Int32.toInt32_toUInt32] at h

theorem reads_longWord (v : UInt64) : Reads Read.longWord (longWord v) v := by
  have h := (reads_bytes (longWord v) (n := 8) rfl).map fun all =>
    (Read.assemble (all.take 4)).toUInt64 ||| ((Read.assemble (all.drop 4)).toUInt64 <<< 32)
  have hlow : (longWord v).take 4 = word v.toUInt32 := rfl
  have hhigh : (longWord v).drop 4 = word (v >>> 32).toUInt32 := rfl
  rwa [hlow, hhigh, assemble_word, assemble_word, halves_longWord] at h

theorem toNat_count {n : Nat} (hn : n < 2 ^ 32) : (UInt32.ofNat n).toNat = n := by
  rw [UInt32.toNat_ofNat']
  exact Nat.mod_eq_of_lt hn

theorem reads_count {n : Nat} (hn : n < 2 ^ 32) : Reads Read.count (count n) n := by
  have h := (reads_word (UInt32.ofNat n)).map UInt32.toNat
  rwa [toNat_count hn] at h

/-- A list below the limit is read with the length it was written with. -/
theorem reads_counted {α : Type} {item : Read α} {write : α → Bytes} {values : List α}
    (hlength : values.length < 2 ^ 32) (h : ∀ a ∈ values, Reads item (write a) a) :
    Reads (Read.counted item) (list write values) values :=
  (reads_count hlength).bind (reads_items h)

theorem decode_encode_text (s : String) : Utf8.decode? (Utf8.encode s) = some s := by
  have hdata : (⟨(Utf8.encode s).toArray⟩ : ByteArray) = s.toByteArray := rfl
  rw [Utf8.decode?, hdata, String.fromUTF8?, dif_pos s.isValidUTF8]
  rfl

theorem length_encode (s : String) : (Utf8.encode s).length = s.utf8ByteSize := rfl

theorem reads_text {s : String} (hs : s.utf8ByteSize < 2 ^ 32) : Reads Read.text (text s) s := by
  rw [← length_encode] at hs
  refine (reads_count hs).bind (reads_position_bind fun n => ?_)
  refine (reads_bytes (Utf8.encode s) rfl).bind_last ?_
  rw [decode_encode_text]
  exact reads_pure s

theorem reads_expectTag (t : Tag) : Reads (Read.expectTag t) (tag t) () := by
  apply reads_position_bind
  intro n
  have htag : Reads Read.tag (tag t) t := (reads_bytes (tag t) rfl).bind_last (reads_pure t)
  refine htag.bind_last ?_
  rw [if_pos rfl]
  exact reads_pure ()

theorem length_flatMap_word (values : List UInt32) :
    (values.flatMap word).length = values.length * 4 := by
  induction values with
  | nil => rfl
  | cons v values ih =>
    have hword : (word v).length = 4 := rfl
    rw [List.flatMap_cons, List.length_append, ih, hword, List.length_cons]
    omega

theorem grouped_flatMap_word (values : List UInt32) :
    Read.grouped (values.flatMap word) = values := by
  induction values with
  | nil => rfl
  | cons v values ih =>
    have hv : Read.grouped ((v :: values).flatMap word) =
        Read.assemble (word v) :: Read.grouped (values.flatMap word) := rfl
    rw [hv, assemble_word, ih]

theorem reads_words {values : List UInt32} (h : values.length * 4 < 2 ^ 32) :
    Reads Read.words (words values) values := by
  apply reads_position_bind
  intro n
  have hlength : (UInt32.ofNat (values.length * 4)).toNat = values.length * 4 := toNat_count h
  have haligned : UInt32.ofNat (values.length * 4) % 4 = 0 := by
    apply UInt32.toNat_inj.mp
    rw [UInt32.toNat_mod, hlength]
    exact Nat.mul_mod_left _ _
  refine (reads_word _).bind ?_
  rw [if_pos haligned]
  have hbytes : (values.flatMap word).length = (UInt32.ofNat (values.length * 4)).toNat := by
    rw [hlength, length_flatMap_word]
  have hread := (reads_bytes _ hbytes).map Read.grouped
  rwa [grouped_flatMap_word] at hread

end EffectLink.Wire
