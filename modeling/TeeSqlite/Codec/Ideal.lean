import TeeSqlite.Codec.CodecExt

/-! The codec over an ideal scheme and a tag map that is a finite map: what an
encryption stores, and when reading it back gives the page. -/
namespace TeeSqlite
open ByteFile AuthEnc

/-- The handles after a `reset` on the ideal TEE. -/
def Codec.handled (codec : Codec) : Codec :=
  { codec with test_op_handle := 1, test_key_handle := 1 }

def Codec.keyFor (codec : Codec) (useWriteKey : Bool) : Key :=
  if useWriteKey then codec.m_writeKey else codec.m_readKey

section
variable (ae : PageAE)

theorem reset_ideal (s : Setup × List Final) (codec : Codec) (isenc : Bool) (key : Key) :
    reset (idealCalls ae).logged s codec isenc key = ((⟨key, key, iv⟩, s.2), codec.handled) := by
  simp only [reset, TeeCalls.logged, idealCalls]
  split <;> split <;> rfl

theorem CodecAES_encrypt_ideal (s : Setup × List Final) (codec : Codec) (data : Bytes)
    (p_mac : Tag) (useWriteKey : Bool) :
    CodecAES (idealCalls ae).logged s codec true data p_mac useWriteKey =
      let key := codec.keyFor useWriteKey
      ((⟨key, key, iv⟩, .encrypt data (ae.enc key iv data).2 TEE_SUCCESS :: s.2), codec.handled,
        ae.enc key iv data) := by
  simp only [CodecAES, reset_ideal]
  rfl

/-- The result of a decryption that opens as `opened`. -/
def finalRc (opened : Option Bytes) : TEE_Result :=
  if opened.isSome then TEE_SUCCESS else TEE_ERROR_MAC_INVALID

theorem CodecAES_decrypt_ideal (s : Setup × List Final) (codec : Codec) (data : Bytes)
    (p_mac : Tag) :
    CodecAES (idealCalls ae).logged s codec false data p_mac false =
      let key := codec.m_readKey
      let opened := ae.dec key iv data p_mac
      ((⟨key, key, iv⟩, .decrypt data p_mac (finalRc opened) :: s.2), codec.handled,
        opened.getD data, p_mac) := by
  simp only [CodecAES, reset_ideal, Bool.false_eq_true, ↓reduceIte]
  rfl

/-- The bytes of a page under its own tag: for page 1, those past the magic. -/
def bodyOf (page : BitVec 32) (data : Bytes) : Bytes := if page = 1 then data.drop 16 else data

def bodyTag (key : Key) (page : BitVec 32) (data : Bytes) : Tag :=
  (ae.enc key iv (bodyOf page data)).2

/-- What an encryption makes of a page. Page 1 keeps bytes 16..23, and the
ciphertext they displace takes the place of the second half of the magic's. -/
def stored (key : Key) (page : BitVec 32) (data : Bytes) : Bytes :=
  let body := (ae.enc key iv (bodyOf page data)).1
  if page = 1 then
    (ae.enc key iv (data.take 16)).1.take 8 ++ (body.take 8 ++ (dbHeaderOf data ++ body.drop 8))
  else body

/-- The four pieces that page 1 is made of. -/
theorem split_page {data : Bytes} (h : 24 ≤ data.length) :
    ∃ a b c d : Bytes, data = a ++ (b ++ (c ++ d)) ∧
      a.length = 8 ∧ b.length = 8 ∧ c.length = 8 := by
  refine ⟨data.take 8, (data.drop 8).take 8, (data.drop 16).take 8, data.drop 24, ?_, ?_, ?_, ?_⟩
  · rw [show data.drop 24 = (data.drop 16).drop 8 by rw [List.drop_drop], List.take_append_drop,
      show data.drop 16 = (data.drop 8).drop 8 by rw [List.drop_drop], List.take_append_drop,
      List.take_append_drop]
  all_goals
    simp only [List.length_take, List.length_drop]
    omega

theorem dbHeaderOf_pieces {a b c d : Bytes} (ha : a.length = 8) (hb : b.length = 8)
    (hc : c.length = 8) : dbHeaderOf (a ++ (b ++ (c ++ d))) = c := by
  have hab : (a ++ b).length = 16 := by rw [List.length_append, ha, hb]
  rw [dbHeaderOf, ← List.append_assoc, List.drop_left' hab, List.take_left' hc]

theorem take_pieces {a b c : Bytes} (ha : a.length = 8) (hb : b.length = 8) :
    (a ++ (b ++ c)).take 16 = a ++ b ∧ (a ++ (b ++ c)).drop 16 = c := by
  have hab : (a ++ b).length = 16 := by rw [List.length_append, ha, hb]
  rw [← List.append_assoc]
  exact ⟨List.take_left' hab, List.drop_left' hab⟩

/-- The bytes under the clear header move to the second half of the magic. -/
theorem splice_header {H C c : Bytes} (lenH : H.length = 16) (lenC : (C.take 8).length = 8)
    (hc : c.length = 8) : splice (splice (H ++ C) 8 (C.take 8)) 16 c =
      H.take 8 ++ (C.take 8 ++ (c ++ C.drop 8)) := by
  have lenH8 : (H.take 8).length = 8 := by rw [List.length_take]; omega
  have lenH8' : (H.drop 8).length = 8 := by rw [List.length_drop]; omega
  have split : H ++ C = H.take 8 ++ (H.drop 8 ++ (C.take 8 ++ C.drop 8)) := by
    rw [List.take_append_drop, ← List.append_assoc, List.take_append_drop]
  rw [split, splice_middle _ _ _ (lenC.trans lenH8'.symm) lenH8, ← List.append_assoc,
    splice_middle _ _ _ (hc.trans lenC.symm) (by rw [List.length_append, lenH8, lenC]),
    List.append_assoc]

/-- The displaced ciphertext goes back, and the body is whole again. -/
theorem splice_back {H C c : Bytes} (lenH : H.length = 8) (lenC : (C.take 8).length = 8)
    (hc : c.length = 8) :
    splice (H ++ (C.take 8 ++ (c ++ C.drop 8))) 16
        (((H ++ (C.take 8 ++ (c ++ C.drop 8))).drop 8).take 8) = H ++ (C.take 8 ++ C) := by
  rw [List.drop_left' lenH, List.take_left' lenC, ← List.append_assoc,
    splice_middle _ _ _ (lenC.trans hc.symm) (by rw [List.length_append, lenH, lenC]),
    List.take_append_drop, List.append_assoc]

/-- Over an ideal scheme and a finite map an encryption gives the stored form, and
the map gets the body's tag. -/
theorem encrypt_ideal (w : World (Setup × List Final) TagMap) (codec : Codec) (fr : Frame)
    (page : BitVec 32) {data : Bytes} (useWriteKey : Bool) (len : 24 ≤ data.length) :
    ∃ w', CodecEncrypt (idealCalls ae).logged finiteMapStore w codec fr page data useWriteKey =
        some (w', codec.handled, stored ae (codec.keyFor useWriteKey) page data) ∧
      w'.tag page = some (bodyTag ae (codec.keyFor useWriteKey) page data) ∧
      ∀ k, k ≠ page → k ≠ 0 → w'.tag k = w.tag k := by
  have cells : fr.page ≠ fr.pageHeader := fr.distinct
  have same : codec.handled.keyFor useWriteKey = codec.keyFor useWriteKey := rfl
  by_cases first : page = 1
  · subst first
    obtain ⟨a, b, c, d, rfl, ha, hb, hc⟩ := split_page len
    generalize hkey : codec.keyFor useWriteKey = key at same ⊢
    obtain ⟨head, rest⟩ := take_pieces (c := c ++ d) ha hb
    generalize hH : ae.enc key iv (a ++ b) = H
    generalize hC : ae.enc key iv (c ++ d) = C
    have lenH : H.1.length = (a ++ b).length := hH ▸ ae.length_enc key iv (a ++ b)
    have lenC : C.1.length = (c ++ d).length := hC ▸ ae.length_enc key iv (c ++ d)
    have lenH16 : H.1.length = 16 := by rw [lenH, List.length_append, ha, hb]
    have lenC8 : (C.1.take 8).length = 8 := by
      rw [List.length_take, lenC, List.length_append, hc]
      omega
    have header : dbHeaderOf (a ++ (b ++ (c ++ d))) = c := dbHeaderOf_pieces ha hb hc
    -- the two pieces are encrypted where they lie
    have one : splice (a ++ (b ++ (c ++ d))) 0 H.1 = H.1 ++ (c ++ d) := by
      rw [← List.append_assoc]
      exact splice_first _ _ lenH
    have tail : (H.1 ++ (c ++ d)).drop 16 = c ++ d := List.drop_left' lenH16
    have two : splice (H.1 ++ (c ++ d)) 16 C.1 = H.1 ++ C.1 := by
      have whole := splice_middle H.1 (c ++ d) [] lenC lenH16
      simpa only [List.append_nil] using whole
    have moved : dbHeaderOf (H.1 ++ C.1) = C.1.take 8 := by
      rw [dbHeaderOf, List.drop_left' lenH16]
    have three := splice_header lenH16 lenC8 hc
    simp only [CodecEncrypt, ↓reduceIte, CodecAES_encrypt_ideal, finiteMapStore,
      Option.bind_eq_bind, Option.bind_some, Mem.setMac_int, Mem.setInt_int, if_neg cells, head,
      rest, hkey, same, hH, hC, one, tail, two, moved, header, three, stored, bodyTag, bodyOf]
    refine ⟨_, rfl, ?_, ?_⟩
    · simp
    · intro k other notHeader
      exact (if_neg other).trans (if_neg notHeader)
  · simp only [CodecEncrypt, first, ↓reduceIte, CodecAES_encrypt_ideal, finiteMapStore,
      Option.bind_eq_bind, Option.bind_some, Mem.setMac_int, Mem.setInt_int, List.drop_zero,
      Mem.setMac_mac, stored, bodyTag, bodyOf, splice_zero _ _ (ae.length_enc _ _ _)]
    refine ⟨_, rfl, ?_, ?_⟩
    · exact if_pos rfl
    · intro k other _
      exact if_neg other

/-- A page that SQLite hands to the codec: page 1 has the magic and a valid header. -/
structure ValidPage (pageSize : Nat) (page : BitVec 32) (data : Bytes) : Prop where
  numbered : page ≠ 0
  length : data.length = pageSize
  magic : page = 1 → data.take 16 = SQLITE_FILE_HEADER
  header : page = 1 → headerOk (dbHeaderOf data) = true

/-- Page 1 has what a read puts back and what it looks for. -/
structure Decodable (page : BitVec 32) (data : Bytes) : Prop where
  magic : page = 1 → data.take 16 = SQLITE_FILE_HEADER
  header : page = 1 → headerOk (dbHeaderOf data) = true

theorem ValidPage.decodable {pageSize : Nat} {page : BitVec 32} {data : Bytes}
    (valid : ValidPage pageSize page data) : Decodable page data where
  magic := valid.magic
  header := valid.header

/-- Reading back the stored form of a page decrypts its body, and gives the page
if the body is what comes out. -/
theorem decrypt_ideal (w : World (Setup × List Final) TagMap) (codec : Codec)
    (fr : Frame) {page : BitVec 32} {data : Bytes} (key : Key) (valid : Decodable page data)
    (len : 24 ≤ data.length) {tag : Tag} (recorded : w.tag page = some tag) :
    let body := (ae.enc key iv (bodyOf page data)).1
    let opened := ae.dec codec.m_readKey iv body tag
    ∃ w' result, CodecDecrypt (idealCalls ae).logged finiteMapStore w codec fr page
        (stored ae key page data) = some (w', codec.handled, result) ∧
      w'.tee.2 = .decrypt body tag (finalRc opened) :: w.tee.2 ∧
      bodyOf page result = opened.getD body ∧
      (opened = some (bodyOf page data) → result = data) := by
  dsimp only
  by_cases first : page = 1
  · subst first
    have magic := valid.magic rfl
    have ok := valid.header rfl
    obtain ⟨a, b, c, d, rfl, ha, hb, hc⟩ := split_page len
    obtain ⟨head, rest⟩ := take_pieces (c := c ++ d) ha hb
    have header : dbHeaderOf (a ++ (b ++ (c ++ d))) = c := dbHeaderOf_pieces ha hb hc
    rw [header] at ok
    rw [head] at magic
    simp only [stored, bodyOf, ↓reduceIte, head, rest, header]
    generalize hC : ae.enc key iv (c ++ d) = C
    have lenC : C.1.length = (c ++ d).length := hC ▸ ae.length_enc key iv (c ++ d)
    have lenH : (ae.enc key iv (a ++ b)).1.length = 16 := by
      rw [ae.length_enc, List.length_append, ha, hb]
    generalize (ae.enc key iv (a ++ b)).1 = H at lenH
    have lenH8 : (H.take 8).length = 8 := by rw [List.length_take]; omega
    have lenC8 : (C.1.take 8).length = 8 := by
      rw [List.length_take, lenC, List.length_append, hc]
      omega
    have header' : dbHeaderOf (H.take 8 ++ (C.1.take 8 ++ (c ++ C.1.drop 8))) = c :=
      dbHeaderOf_pieces lenH8 lenC8 hc
    have placed := splice_back lenH8 lenC8 hc
    have located : locate 1 (H.take 8 ++ (C.1.take 8 ++ (c ++ C.1.drop 8))) =
        (16, H.take 8 ++ (C.1.take 8 ++ C.1)) := by
      rw [locate, header', if_pos ⟨rfl, ok⟩, placed]
    have body : (H.take 8 ++ (C.1.take 8 ++ C.1)).drop 16 = C.1 := (take_pieces lenH8 lenC8).2
    have lenQ := ae.length_getD_dec codec.m_readKey iv C.1 tag
    generalize hQ : (ae.dec codec.m_readKey iv C.1 tag).getD C.1 = Q at lenQ ⊢
    have opened : splice (H.take 8 ++ (C.1.take 8 ++ C.1)) 16 Q =
        H.take 8 ++ (C.1.take 8 ++ Q) := by
      have laid := splice_middle (H.take 8 ++ C.1.take 8) C.1 [] lenQ
        (by rw [List.length_append, lenH8, lenC8])
      simpa only [List.append_nil, List.append_assoc] using laid
    have clear : dbHeaderOf (H.take 8 ++ (C.1.take 8 ++ Q)) = Q.take 8 := by
      rw [dbHeaderOf, (take_pieces lenH8 lenC8).2]
    have restored : splice (H.take 8 ++ (C.1.take 8 ++ Q)) 0 SQLITE_FILE_HEADER =
        SQLITE_FILE_HEADER ++ Q := by
      rw [← List.append_assoc]
      apply splice_first
      rw [List.length_append, lenH8, lenC8]
      rfl
    have shifted : ¬ (16 : Nat) = 0 := by decide
    simp only [CodecDecrypt, located, finiteMapStore, Mem.setInt_int, ↓reduceIte, recorded,
      Option.bind_eq_bind, Option.bind_some, Option.getD_some, CodecAES_decrypt_ideal, body, hQ,
      opened, clear, restored, header', ne_eq, shifted, not_false_eq_true, true_and]
    refine ⟨_, _, rfl, rfl, ?_, ?_⟩
    · split
      · exact List.drop_left' rfl
      · exact (take_pieces lenH8 lenC8).2
    · intro whole
      rw [whole, Option.getD_some] at hQ
      subst hQ
      rw [List.take_left' hc, if_pos rfl, ← magic, List.append_assoc]
  · simp only [stored, bodyOf, first, ↓reduceIte]
    generalize hC : (ae.enc key iv data).1 = C
    have lenQ := ae.length_getD_dec codec.m_readKey iv C tag
    have located : locate page C = (0, C) := by
      rw [locate, if_neg]
      rintro ⟨one, -⟩
      exact first one
    simp only [CodecDecrypt, located, finiteMapStore, Mem.setInt_int, ↓reduceIte, recorded,
      Option.bind_eq_bind, Option.bind_some, Option.getD_some, CodecAES_decrypt_ideal,
      List.drop_zero, first, false_and, splice_zero _ _ lenQ]
    refine ⟨_, _, rfl, rfl, rfl, ?_⟩
    intro whole
    rw [whole]
    rfl

end
end TeeSqlite
