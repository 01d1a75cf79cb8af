import EffectLink.Proofs.ArtifactRoundTrip

namespace EffectLink

namespace Wire

/-- `next` is the cursor after `taken` has been read at `c`. -/
structure Cursor.Past (c : Cursor) (taken : Bytes) (next : Cursor) : Prop where
  rest : c.rest = taken ++ next.rest
  position : next.position = c.position + taken.length

theorem Cursor.Past.trans {c mid next : Cursor} {first second : Bytes} (h : c.Past first mid)
    (h' : mid.Past second next) : c.Past (first ++ second) next := by
  refine ⟨?_, ?_⟩
  · rw [h.rest, h'.rest, List.append_assoc]
  · rw [h'.position, h.position, List.length_append, Nat.add_assoc]

section Steps

variable {α β : Type}

/-- Whenever `r` gives a value, `post` holds of the value and the bytes that were taken for it. -/
def Takes (r : Read α) (post : α → Bytes → Prop) : Prop :=
  ∀ ⦃c a next⦄, r c = (.ok a, next) → ∃ taken, c.Past taken next ∧ post a taken

/-- Whenever `r` gives a value, it has taken just what is written for the value, and the value fits. -/
def Exact (r : Read α) (write : α → Bytes) (fits : α → Prop) : Prop :=
  Takes r fun a taken => taken = write a ∧ fits a

theorem takes_pure {a : α} {post : α → Bytes → Prop} (h : post a []) :
    Takes (pure a : Read α) post := by
  intro c b next hread
  cases hread
  exact ⟨[], ⟨rfl, rfl⟩, h⟩

/-- A step that only fails gives no value. -/
theorem takes_fail (fault : Fault) (post : α → Bytes → Prop) :
    Takes (Read.fail fault : Read α) post :=
  fun _ _ _ hread => nomatch congrArg Prod.fst hread

theorem Takes.bind {r : Read α} {f : α → Read β} {mid : α → Bytes → Prop} {post : β → Bytes → Prop}
    (hr : Takes r mid)
    (hf : ∀ a first, mid a first → Takes (f a) fun b second => post b (first ++ second)) :
    Takes (r >>= f) post := by
  intro c b next hread
  change Read.bind r f c = _ at hread
  unfold Read.bind at hread
  rcases hstep : r c with ⟨outcome, after⟩
  rw [hstep] at hread
  cases outcome with
  | error fault => exact nomatch congrArg Prod.fst hread
  | ok a =>
    obtain ⟨first, hfirst, hmid⟩ := hr hstep
    obtain ⟨second, hsecond, hpost⟩ := hf a first hmid hread
    exact ⟨first ++ second, hfirst.trans hsecond, hpost⟩

theorem Exact.bind {r : Read α} {f : α → Read β} {write : α → Bytes} {fits : α → Prop}
    {post : β → Bytes → Prop} (hr : Exact r write fits)
    (hf : ∀ a, fits a → Takes (f a) fun b more => post b (write a ++ more)) :
    Takes (r >>= f) post := by
  refine Takes.bind hr fun a first hfirst => ?_
  rw [hfirst.1]
  exact hf a hfirst.2

/-- The last step of a sequence takes nothing. -/
theorem Exact.map {r : Read α} {write : α → Bytes} {fits : α → Prop} {g : α → β}
    {post : β → Bytes → Prop} (hr : Exact r write fits) (h : ∀ a, fits a → post (g a) (write a)) :
    Takes (r >>= fun a => pure (g a)) post := by
  refine hr.bind fun a ha => takes_pure ?_
  rw [List.append_nil]
  exact h a ha

theorem takes_position_bind {f : Nat → Read α} {post : α → Bytes → Prop}
    (hf : ∀ n, Takes (f n) post) : Takes (Read.position >>= f) post := by
  intro c a next hread
  exact hf c.position hread

theorem exact_bytes (n : Nat) : Exact (Read.bytes n) id fun taken => taken.length = n := by
  intro c taken next hread
  unfold Read.bytes at hread
  split at hread
  · exact nomatch congrArg Prod.fst hread
  · next hlong =>
    cases hread
    have hlength : (c.rest.take n).length = n := by
      rw [List.length_take]
      unfold Cursor.remaining at hlong
      omega
    refine ⟨c.rest.take n, ⟨(List.take_append_drop n c.rest).symm, ?_⟩, rfl, hlength⟩
    rw [hlength]

theorem exact_items {item : Read α} {write : α → Bytes} {fits : α → Prop}
    (hitem : Exact item write fits) (n : Nat) :
    Exact (Read.items item n) (·.flatMap write) fun values =>
      values.length = n ∧ ∀ a ∈ values, fits a := by
  induction n with
  | zero => exact takes_pure ⟨rfl, rfl, fun _ ha => absurd ha List.not_mem_nil⟩
  | succ n ih =>
    refine hitem.bind fun first hfirst => ih.map fun more hmore => ⟨rfl, ?_, ?_⟩
    · exact congrArg (· + 1) hmore.1
    · exact List.forall_mem_cons.mpr ⟨hfirst, hmore.2⟩

end Steps

/-- Four bytes are the spelling of the word that they make up. -/
theorem word_assemble {bytes : Bytes} (h : bytes.length = 4) : word (Read.assemble bytes) = bytes := by
  have hbyte {x y : UInt8} (hxy : ∀ i < 8, x.toBitVec.getLsbD i = y.toBitVec.getLsbD i) : x = y :=
    UInt8.eq_of_toBitVec_eq (BitVec.eq_of_getLsbD_eq hxy)
  match bytes, h with
  | [a, b, c, d], _ =>
    -- a shift brings the byte that is asked for to the front, where the three others have no bits
    have hfirst : (Read.assemble [a, b, c, d]).toUInt8 = a := by
      refine hbyte fun i hi => ?_
      simp [Read.assemble, hi]
    have hsecond : (Read.assemble [a, b, c, d] >>> 8).toUInt8 = b := by
      refine hbyte fun i hi => ?_
      simp [Read.assemble]
      grind
    have hthird : (Read.assemble [a, b, c, d] >>> 16).toUInt8 = c := by
      refine hbyte fun i hi => ?_
      simp [Read.assemble]
      grind
    have hfourth : (Read.assemble [a, b, c, d] >>> 24).toUInt8 = d := by
      refine hbyte fun i hi => ?_
      simp [Read.assemble]
      grind
    rw [word, hfirst, hsecond, hthird, hfourth]

/-- Two words are the spelling of the long word that has them as halves. -/
theorem longWord_halves (low high : UInt32) :
    longWord (low.toUInt64 ||| (high.toUInt64 <<< 32)) = word low ++ word high := by
  have hword {x y : UInt32} (hxy : ∀ i < 32, x.toBitVec.getLsbD i = y.toBitVec.getLsbD i) : x = y :=
    UInt32.eq_of_toBitVec_eq (BitVec.eq_of_getLsbD_eq hxy)
  have hlow : (low.toUInt64 ||| (high.toUInt64 <<< 32)).toUInt32 = low := by
    refine hword fun i hi => ?_
    simp [hi]
  have hhigh : ((low.toUInt64 ||| (high.toUInt64 <<< 32)) >>> 32).toUInt32 = high := by
    refine hword fun i hi => ?_
    simp
    grind
  rw [longWord, hlow, hhigh]

theorem exact_bool : Exact Read.bool bool fun _ => True := by
  refine takes_position_bind fun n => (exact_bytes 1).bind fun taken _ => ?_
  -- any byte but these two is a fault
  split
  · exact takes_pure ⟨rfl, trivial⟩
  · exact takes_pure ⟨rfl, trivial⟩
  · exact takes_fail _ _

theorem exact_word : Exact Read.word word fun _ => True :=
  (exact_bytes 4).map fun _ hlength => ⟨(word_assemble hlength).symm, trivial⟩

theorem exact_int : Exact Read.int int fun _ => True := by
  refine exact_word.map fun w _ => ⟨?_, trivial⟩
  rw [int, UInt32.toUInt32_toInt32]

theorem exact_longWord : Exact Read.longWord longWord fun _ => True := by
  refine (exact_bytes 8).map fun taken hlength => ⟨?_, trivial⟩
  have hlow : (taken.take 4).length = 4 := by
    rw [List.length_take]
    omega
  have hhigh : (taken.drop 4).length = 4 := by
    rw [List.length_drop]
    omega
  rw [longWord_halves, word_assemble hlow, word_assemble hhigh, List.take_append_drop]
  rfl

theorem exact_count : Exact Read.count count fun n => n < 2 ^ 32 := by
  refine exact_word.map fun w _ => ⟨?_, w.toNat_lt⟩
  rw [count, UInt32.ofNat_toNat]

/-- The number in front of a list is its length, so the list cannot end elsewhere. -/
theorem exact_counted {α : Type} {item : Read α} {write : α → Bytes} {fits : α → Prop}
    (hitem : Exact item write fits) :
    Exact (Read.counted item) (list write) (ListFits fits) := by
  refine exact_count.bind fun n hn => ?_
  intro c values next hread
  obtain ⟨taken, hpast, rfl, hlength, hfits⟩ := exact_items hitem n hread
  refine ⟨_, hpast, ?_, ?_, hfits⟩
  · rw [list, hlength]
  · rw [hlength]
    exact hn

theorem encode_of_decode? {bytes : Bytes} {s : String} (h : Utf8.decode? bytes = some s) :
    Utf8.encode s = bytes := by
  unfold Utf8.decode? String.fromUTF8? at h
  split at h
  · cases h
    rfl
  · contradiction

theorem exact_text : Exact Read.text text TextFits := by
  refine exact_count.bind fun n hn => takes_position_bind fun offset => ?_
  refine (exact_bytes n).bind fun taken hlength => ?_
  cases hdecode : Utf8.decode? taken with
  | none => exact takes_fail _ _
  | some s =>
    obtain rfl := encode_of_decode? hdecode
    subst hlength
    exact takes_pure ⟨by rw [List.append_nil]; rfl, hn⟩

theorem exact_tag : Exact Read.tag tag fun _ => True := by
  refine (exact_bytes 4).bind fun taken hlength => ?_
  match taken, hlength with
  | [a, b, c, d], _ => exact takes_pure ⟨rfl, trivial⟩

theorem exact_expectTag (t : Tag) : Exact (Read.expectTag t) (fun _ => tag t) fun _ => True := by
  refine takes_position_bind fun offset => exact_tag.bind fun found _ => ?_
  split
  · next hfound => exact takes_pure ⟨by rw [List.append_nil, hfound], trivial⟩
  · exact takes_fail _ _

/-- Bytes that come in fours are the spelling of the words that they make up. -/
theorem flatMap_word_grouped {bytes : Bytes} (h : bytes.length % 4 = 0) :
    (Read.grouped bytes).flatMap word = bytes := by
  fun_induction Read.grouped bytes with
  | case1 a b c d rest ih =>
    have hrest : rest.length % 4 = 0 := by
      simp only [List.length_cons] at h
      omega
    rw [List.flatMap_cons, word_assemble rfl, ih hrest]
    rfl
  | case2 bytes hshort =>
    match bytes, h with
    | [], _ => rfl
    | [_], h | [_, _], h | [_, _, _], h => simp at h
    | a :: b :: c :: d :: rest, _ => exact absurd rfl (hshort a b c d rest)

theorem exact_words : Exact Read.words words fun values => values.length * 4 < 2 ^ 32 := by
  refine takes_position_bind fun offset => exact_word.bind fun length _ => ?_
  split
  · next haligned =>
    refine (exact_bytes length.toNat).map fun taken hlength => ?_
    have hfours : taken.length % 4 = 0 := by
      rw [hlength]
      exact (UInt32.toNat_mod length 4).symm.trans (congrArg UInt32.toNat haligned)
    have hspelling := flatMap_word_grouped hfours
    -- the length that was read is that of the words that were read
    have hcount : (Read.grouped taken).length * 4 = length.toNat := by
      rw [← length_flatMap_word, hspelling, hlength]
    refine ⟨?_, Nat.lt_of_le_of_lt (Nat.le_of_eq hcount) length.toNat_lt⟩
    rw [words, hcount, count, UInt32.ofNat_toNat, hspelling]
    rfl
  · exact takes_fail _ _

/-- The kind that was read is the kind of the value that follows. -/
theorem takes_value (offset : Nat) (kind : UInt32) :
    Takes (Read.value offset kind) fun v taken =>
      v.kindCode = kind ∧ taken = value v ∧ v.Fits := by
  unfold Read.value
  split
  · exact exact_int.map fun v hv => ⟨rfl, rfl, hv⟩
  · exact exact_word.map fun v hv => ⟨rfl, rfl, hv⟩
  · exact exact_word.map fun v hv => ⟨rfl, rfl, hv⟩
  · exact exact_longWord.map fun v hv => ⟨rfl, rfl, hv⟩
  · exact exact_bool.map fun v hv => ⟨rfl, rfl, hv⟩
  · exact exact_text.map fun v hv => ⟨rfl, rfl, hv⟩
  · exact takes_fail _ _

theorem exact_entry : Exact Read.entry entry AnnotationEntry.Fits := by
  refine takes_position_bind fun offset => exact_word.bind fun kind _ => ?_
  refine exact_text.bind fun key hkey => (takes_value offset kind).bind fun v taken hv => ?_
  obtain ⟨rfl, rfl, hfits⟩ := hv
  refine takes_pure ⟨?_, hkey, hfits⟩
  rw [List.append_nil, entry, List.append_assoc]

theorem exact_entries : Exact Read.entries entries fun a =>
    ∀ entries ∈ a, ListFits AnnotationEntry.Fits entries := by
  refine exact_bool.bind fun present _ => ?_
  cases present with
  | false => exact takes_pure ⟨rfl, fun _ hnone => nomatch hnone⟩
  | true =>
    refine (exact_counted exact_entry).map fun entries hentries => ⟨rfl, fun _ hsome => ?_⟩
    cases hsome
    exact hentries

theorem exact_binding :
    Exact Read.binding binding fun b => TextFits b.1 ∧ TextFits b.2 :=
  exact_text.bind fun _ hinterface =>
    exact_text.map fun _ himplementation => ⟨rfl, hinterface, himplementation⟩

theorem exact_stage (s : Stage) : Exact (Read.stage s) (stage s) StageRecord.Fits := by
  refine (exact_expectTag s.tag).bind fun _ _ => exact_text.bind fun name hname => ?_
  refine (exact_counted exact_binding).bind fun bindings hbindings => ?_
  refine exact_words.map fun binary hbinary => ⟨?_, hname, hbindings, hbinary⟩
  rw [stage, List.append_assoc, List.append_assoc]

theorem exact_offset : Exact Read.offset offset fun o => TextFits o.1 :=
  exact_text.bind fun _ hname => exact_word.map fun _ _ => ⟨rfl, hname⟩

/-- What is read as a record is the record's encoding. -/
theorem exact_record : Exact Read.record Record.encode Record.Fits := by
  unfold Read.record
  refine exact_text.bind fun name hname => exact_entries.bind fun annotated hentries => ?_
  refine exact_bool.bind fun hasHull _ => exact_word.bind fun patchSize _ => ?_
  refine exact_count.bind fun inputs hinputs => exact_count.bind fun outputs houtputs => ?_
  refine (exact_items exact_word inputs).bind fun vertexInputs hvertexInputs => ?_
  refine (exact_items exact_word outputs).bind fun pixelOutputs hpixelOutputs => ?_
  refine exact_bool.bind fun hasGeometry _ => ?_
  refine (exact_stage .vertex).bind fun vertex hvertex => ?_
  refine (exact_stage .hull).bind fun hull hhull => ?_
  refine (exact_stage .domain).bind fun domain hdomain => ?_
  refine (exact_stage .geometry).bind fun geometry hgeometry => ?_
  refine (exact_stage .pixel).bind fun pixel hpixel => ?_
  refine (exact_stage .compute).bind fun compute hcompute => ?_
  refine (exact_counted exact_text).bind fun blocks hblocks => ?_
  refine (exact_counted exact_text).bind fun uniforms huniforms => ?_
  refine (exact_counted exact_offset).bind fun offsets hoffsets => ?_
  refine (exact_expectTag renderStateTag).bind fun _ _ => exact_text.map fun renderState hstate => ?_
  rw [← hvertexInputs.1] at hinputs ⊢
  rw [← hpixelOutputs.1] at houtputs ⊢
  refine ⟨?_, hname, hentries, hinputs, houtputs, ?_, hblocks, huniforms, hoffsets, hstate⟩
  · unfold Record.encode
    simp only [List.append_assoc]
  · intro s
    cases s
    · exact hvertex
    · exact hhull
    · exact hdomain
    · exact hgeometry
    · exact hpixel
    · exact hcompute

end Wire

namespace Record

open Wire

/-- The reader accepts exactly what the writer makes of a record that fits. -/
theorem decode_eq_ok {bytes : Bytes} {r : Record} :
    decode bytes = .ok r ↔ r.Fits ∧ bytes = r.encode := by
  constructor
  · intro h
    unfold decode at h
    rcases hread : Read.record (.start bytes) with ⟨outcome, c⟩
    rw [hread] at h
    cases outcome with
    | error fault => contradiction
    | ok record =>
      obtain ⟨taken, hpast, htaken, hfits⟩ := exact_record hread
      rw [htaken] at hpast
      dsimp only at h
      split at h
      · next hend =>
        obtain rfl := Except.ok.inj h
        have hall : bytes = record.encode ++ c.rest := hpast.rest
        rw [List.isEmpty_iff.mp hend, List.append_nil] at hall
        exact ⟨hfits, hall⟩
      · contradiction
  · rintro ⟨hfits, hbytes⟩
    rw [hbytes]
    exact decode_encode hfits

/-- No record has two artifacts: two sequences of bytes that are read as the same record are equal. -/
theorem decode_injective {a b : Bytes} {r : Record} (ha : decode a = .ok r) (hb : decode b = .ok r) :
    a = b := by
  obtain ⟨-, ha⟩ := decode_eq_ok.mp ha
  obtain ⟨-, hb⟩ := decode_eq_ok.mp hb
  rw [ha, hb]

/-- One shaded stage, one binding, and metadata. -/
def portal : Record :=
  { name := "Tür", annotation := some [⟨"open", .bool true⟩], hasHull := false, patchSize := 0
    vertexInputs := [3], pixelOutputs := [], hasGeometry := false
    stages :=
      { vertex := ⟨"arch", [("hinge", "left")], [0x07230203]⟩
        hull := ⟨"", [], []⟩, domain := ⟨"", [], []⟩, geometry := ⟨"", [], []⟩
        pixel := ⟨"", [], []⟩, compute := ⟨"", [], []⟩ }
    blocks := ["Gate"], uniforms := [], offsets := [("eye", 16)], renderState := "wood" }

def portalBytes : Bytes :=
  [4, 0, 0, 0, 84, 195, 188, 114,
   1, 1, 0, 0, 0, 4, 0, 0, 0, 4, 0, 0, 0, 111, 112, 101, 110, 1,
   0, 0, 0, 0, 0, 1, 0, 0, 0, 0, 0, 0, 0, 3, 0, 0, 0, 0,
   84, 82, 69, 86, 4, 0, 0, 0, 97, 114, 99, 104, 1, 0, 0, 0,
     5, 0, 0, 0, 104, 105, 110, 103, 101, 4, 0, 0, 0, 108, 101, 102, 116, 4, 0, 0, 0, 3, 2, 35, 7,
   76, 76, 85, 72, 0, 0, 0, 0, 0, 0, 0, 0, 0, 0, 0, 0,
   65, 77, 79, 68, 0, 0, 0, 0, 0, 0, 0, 0, 0, 0, 0, 0,
   77, 79, 69, 71, 0, 0, 0, 0, 0, 0, 0, 0, 0, 0, 0, 0,
   76, 88, 73, 80, 0, 0, 0, 0, 0, 0, 0, 0, 0, 0, 0, 0,
   80, 77, 79, 67, 0, 0, 0, 0, 0, 0, 0, 0, 0, 0, 0, 0,
   1, 0, 0, 0, 4, 0, 0, 0, 71, 97, 116, 101, 0, 0, 0, 0,
   1, 0, 0, 0, 3, 0, 0, 0, 101, 121, 101, 16, 0, 0, 0,
   65, 84, 83, 82, 4, 0, 0, 0, 119, 111, 111, 100]

theorem decode_injective_portal :
    decode portalBytes = .ok portal ∧ decode portal.encode = .ok portal ∧
      portalBytes = portal.encode := by
  have hread : (decode portalBytes).toOption = some portal := by decide +kernel
  have hliteral : decode portalBytes = .ok portal := by
    cases hdecode : decode portalBytes with
    | error fault =>
      rw [hdecode] at hread
      contradiction
    | ok r =>
      rw [hdecode] at hread
      exact congrArg Except.ok (Option.some.inj hread)
  have hwritten : decode portal.encode = .ok portal := decode_encode (by decide)
  exact ⟨hliteral, hwritten, decode_injective hliteral hwritten⟩

end Record

end EffectLink
