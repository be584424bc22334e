import TeeSqlite.Codec.Tee

/-! The page codec of the TA, `codec.c` built for AES-GCM. The locals whose addresses
reach the tag map are cells of the memory, at the places a `Frame` says. A result
`none` is a call that goes wrong inside the tag map. -/
namespace TeeSqlite
open ByteFile CTypes

def SQLITE_MAX_PAGE_SIZE : Nat := 65536

/-- A b-tree, of which the codec asks the page size: a power of two that SQLite admits. -/
structure Btree where
  pageSize : Nat
  least : 512 ≤ pageSize
  most : pageSize ≤ SQLITE_MAX_PAGE_SIZE
  power : pageSize &&& (pageSize - 1) = 0

structure Codec where
  m_isEncrypted : Bool
  m_hasReadKey : Bool
  m_readKey : Key
  m_hasWriteKey : Bool
  m_writeKey : Key
  test_op_handle : Handle
  test_key_handle : Handle
  m_bt : Btree
  m_page : Bytes

def CodecInit (codec : Codec) : Codec :=
  { codec with m_isEncrypted := false, m_hasReadKey := false, m_hasWriteKey := false }

def CodecSetIsEncrypted (codec : Codec) (b : Bool) : Codec := { codec with m_isEncrypted := b }
def CodecSetHasReadKey (codec : Codec) (b : Bool) : Codec := { codec with m_hasReadKey := b }
def CodecSetHasWriteKey (codec : Codec) (b : Bool) : Codec := { codec with m_hasWriteKey := b }
def CodecSetBtree (codec : Codec) (bt : Btree) : Codec := { codec with m_bt := bt }

/-- Neither the handles nor the page buffer are copied. -/
def CodecCopy (codec other : Codec) : Codec :=
  { codec with m_isEncrypted := other.m_isEncrypted, m_hasReadKey := other.m_hasReadKey,
               m_hasWriteKey := other.m_hasWriteKey, m_readKey := other.m_readKey,
               m_writeKey := other.m_writeKey, m_bt := other.m_bt }

def CodecCopyKey (codec : Codec) (read2write : Bool) : Codec :=
  if read2write then { codec with m_writeKey := codec.m_readKey }
  else { codec with m_readKey := codec.m_writeKey }

/-- The bytes in memory from a pointer on. -/
abbrev Pointee := Nat → UInt8

/-- `KEYLENGTH` bytes are copied, whatever the length of the password. -/
def CodecGenerateEncryptionKey (userPassword : Pointee) (_passwordLength : Int) : Key :=
  ⟨List.ofFn fun i : Fin KEYLENGTH => userPassword i, List.length_ofFn⟩

def CodecGenerateReadKey (codec : Codec) (userPassword : Pointee) (passwordLength : Int) : Codec :=
  { codec with m_readKey := CodecGenerateEncryptionKey userPassword passwordLength }

def CodecGenerateWriteKey (codec : Codec) (userPassword : Pointee) (passwordLength : Int) : Codec :=
  { codec with m_writeKey := CodecGenerateEncryptionKey userPassword passwordLength }

section
variable {σ : Type} (u : TeeCalls σ)

/-- No result is looked at. -/
def reset (s : σ) (codec : Codec) (isenc : Bool) (key : Key) : σ × Codec :=
  let s := if codec.test_op_handle ≠ TEE_HANDLE_NULL then
    u.TEE_FreeOperation s codec.test_op_handle else s
  let mode := if isenc then Mode.TEE_MODE_ENCRYPT else .TEE_MODE_DECRYPT
  let (s, _, op) := u.TEE_AllocateOperation s codec.test_op_handle mode
  let s := if codec.test_key_handle ≠ TEE_HANDLE_NULL then
    u.TEE_FreeTransientObject s codec.test_key_handle else s
  let (s, _, obj) := u.TEE_AllocateTransientObject s codec.test_key_handle
  let (s, _) := u.TEE_PopulateTransientObject s obj key
  let (s, _) := u.TEE_SetOperationKey s op obj
  let (s, _) := u.TEE_AEInit s op iv
  (s, { codec with test_op_handle := op, test_key_handle := obj })

/-- Works in place on `data`; an encryption also fills `p_mac`. The result of the
final call is only printed. -/
def CodecAES (s : σ) (codec : Codec) (encrypt : Bool) (data : Bytes) (p_mac : Tag)
    (useWriteKey : Bool) : σ × Codec × Bytes × Tag :=
  let key := if useWriteKey then codec.m_writeKey else codec.m_readKey
  let (s, codec) := reset u s codec encrypt key
  if encrypt then
    let (s, _, dst, p_out_mac) := u.TEE_AEEncryptFinal s codec.test_op_handle data
    (s, codec, dst.1, p_out_mac)
  else
    let (s, _, dst) := u.TEE_AEDecryptFinal s codec.test_op_handle data p_mac
    (s, codec, dst.1, p_mac)

end

/-- A tag map as the codec uses it: keys and values are cells, and a lookup may
write to the key cell. What is found are the 16 bytes behind the pointer. -/
structure TagStore (τ : Type) where
  hm_get : Mem → τ → Ptr → Option (Mem × Option Tag)
  hm_set : Mem → τ → Ptr → Ptr → Option (Mem × τ)

/-- The tag map of the TA. -/
def hashmapStore : TagStore Hashmap where
  hm_get m map key := (hm_get m map key).map fun (m, tmp) =>
    (m, if tmp = NULL then none else some (m.mac tmp))
  hm_set m map key value := (hm_set .succeed m map key value).map fun (m, map, _) => (m, map)

/-- A finite map from page numbers to tags. -/
abbrev TagMap := BitVec 32 → Option Tag

def finiteMapStore : TagStore TagMap where
  hm_get m tag key := some (m, tag (m.int key))
  hm_set m tag key value :=
    some (m, fun k => if k = m.int key then some (m.mac value) else tag k)

/-- Where the locals of a call are. -/
structure Frame where
  page : Ptr
  pageHeader : Ptr
  p_mac : Ptr
  notNull : page ≠ NULL ∧ pageHeader ≠ NULL ∧ p_mac ≠ NULL
  distinct : page ≠ pageHeader

/-- What the codecs of a TA share: the TEE, the memory and the tag map. -/
structure World (σ τ : Type) where
  tee : σ
  mem : Mem
  tag : τ

/-- Bytes 16..23 of a page. -/
def dbHeaderOf (data : Bytes) : Bytes := (data.drop 16).take 8

/-- The page size that the first two bytes of `dbHeader` name, and its fixed bytes. -/
def headerOk (dbHeader : Bytes) : Bool :=
  let dbPageSize := (dbHeader[0]?.getD 0).toNat <<< 8 ||| (dbHeader[1]?.getD 0).toNat <<< 16
  512 ≤ dbPageSize && dbPageSize ≤ SQLITE_MAX_PAGE_SIZE && (dbPageSize - 1) &&& dbPageSize == 0 &&
    dbHeader[5]?.getD 0 == 0x40 && dbHeader[6]?.getD 0 == 0x20 && dbHeader[7]?.getD 0 == 0x20

/-- `"SQLite format 3"` with its NUL. -/
def SQLITE_FILE_HEADER : Bytes :=
  [0x53, 0x51, 0x4c, 0x69, 0x74, 0x65, 0x20, 0x66, 0x6f, 0x72, 0x6d, 0x61, 0x74, 0x20, 0x33, 0]

section
variable {σ τ : Type} (u : TeeCalls σ) (t : TagStore τ)

/-- Encrypts `data` in place. Of page 1 the first 16 bytes are a piece of their
own, and bytes 16..23 are put back in clear. -/
def CodecEncrypt (w : World σ τ) (codec : Codec) (fr : Frame) (page : BitVec 32) (data : Bytes)
    (useWriteKey : Bool) : Option (World σ τ × Codec × Bytes) := do
  let mem := (w.mem.setInt fr.page page).setMac fr.p_mac Tag.zero
  let dbHeader := dbHeaderOf data
  let (offset, w, codec, data) ←
    if page = 1 then do
      let (tee, codec, piece, mac) :=
        CodecAES u w.tee codec true (data.take 16) (mem.mac fr.p_mac) useWriteKey
      let mem := (mem.setMac fr.p_mac mac).setInt fr.pageHeader (page - 1)
      let (mem, tag) ← t.hm_set mem w.tag fr.pageHeader fr.p_mac
      some (16, (⟨tee, mem, tag⟩ : World σ τ), codec, splice data 0 piece)
    else some (0, ⟨w.tee, mem, w.tag⟩, codec, data)
  let (tee, codec, piece, mac) :=
    CodecAES u w.tee codec true (data.drop offset) (w.mem.mac fr.p_mac) useWriteKey
  let mem := w.mem.setMac fr.p_mac mac
  let data := splice data offset piece
  let (mem, tag) ← t.hm_set mem w.tag fr.page fr.p_mac
  let data :=
    if mem.int fr.page = 1 then splice (splice data 8 (dbHeaderOf data)) 16 dbHeader else data
  some (⟨tee, mem, tag⟩, codec, data)

/-- Where the ciphertext of a page lies, after the bytes that the clear header
displaced are back at their place. -/
def locate (page : BitVec 32) (data : Bytes) : Nat × Bytes :=
  if page = 1 ∧ headerOk (dbHeaderOf data) then (16, splice data 16 ((data.drop 8).take 8))
  else (0, data)

/-- Decrypts `data` in place. Without a recorded tag the tag is 16 zeros. -/
def CodecDecrypt (w : World σ τ) (codec : Codec) (fr : Frame) (page : BitVec 32) (data : Bytes) :
    Option (World σ τ × Codec × Bytes) := do
  let mem := w.mem.setInt fr.page page
  let dbHeader := dbHeaderOf data
  let (offset, data) := locate page data
  let (mem, tmp) ← t.hm_get mem w.tag fr.page
  let (tee, codec, piece, _) :=
    CodecAES u w.tee codec false (data.drop offset) (tmp.getD Tag.zero) false
  let data := splice data offset piece
  let data :=
    if mem.int fr.page = 1 ∧ offset ≠ 0 ∧ dbHeader = dbHeaderOf data then
      splice data 0 SQLITE_FILE_HEADER
    else data
  some (⟨tee, mem, w.tag⟩, codec, data)

end
end TeeSqlite
