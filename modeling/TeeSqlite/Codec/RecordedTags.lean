import TeeSqlite.Lib.Runs
import TeeSqlite.Hashmap.Nodes
import TeeSqlite.Codec.TagSlot

/-! Whose cells the tag map keeps: its nodes point to the locals of `CodecEncrypt`,
so an entry lasts as long as nobody uses these cells again. -/
namespace TeeSqlite
open ByteFile Runs

/-- An encryption, or an assignment by the caller. -/
inductive CallerOp
  | encrypt (codec : Codec) (fr : Frame) (page : BitVec 32) (data : Bytes) (useWriteKey : Bool)
  | setInt (p : Ptr) (x : BitVec 32)
  | setMac (p : Ptr) (t : Tag)

section
variable {σ : Type} (u : TeeCalls σ)

/-- Answers with the record of the final calls. -/
def callerStep (w : World σ Hashmap) : CallerOp → Option (World σ Hashmap × List Final)
  | .encrypt codec fr page data useWriteKey =>
    (CodecEncrypt u.logged hashmapStore ⟨(w.tee, []), w.mem, w.tag⟩ codec fr page data
      useWriteKey).map fun (w, _, _) => (⟨w.tee.1, w.mem, w.tag⟩, w.tee.2)
  | .setInt p x => some ({ w with mem := w.mem.setInt p x }, [])
  | .setMac p t => some ({ w with mem := w.mem.setMac p t }, [])

/-- The tags of the pieces encrypted in a call, the body's first. -/
def tagsOf (log : List Final) : List Tag :=
  log.filterMap fun
    | .encrypt _ tag _ => some tag
    | .decrypt _ _ _ => none

/-- The tag of the last encryption of a page's body, and under 0 that of the last
header piece of page 1; before any, what the map held at the start. -/
def recorded (start : List (BitVec 32 × Tag)) :
    List (CallerOp × List Final) → BitVec 32 → Option Tag
  | [], k => (start.find? (·.1 = k)).map Prod.snd
  | (.encrypt _ _ page _ _, log) :: h, k =>
    if k = page then (tagsOf log)[0]?
    else if k = 0 ∧ page = 1 then (tagsOf log)[1]?
    else recorded start h k
  | _ :: h, k => recorded start h k

/-- The call leaves the cells of the map's nodes alone: the locals of the
encryption are in no node of another page, a value it has freed is of the heap, and an
assignment to a cell in use changes nothing. Page 1 is out, its two pieces share one
`p_mac`. -/
def KeepsCells (heap : Ptr → Prop) (w : World σ Hashmap) : CallerOp → Prop
  | .encrypt _ fr page _ _ =>
    (page ≠ 0 ∧ page.toNat < w.tag.size.toNat) ∧ page ≠ 1 ∧
    ∀ item ∈ w.tag.nodes,
      if w.mem.int item.key = page then item.value = fr.p_mac ∨ heap item.value
      else item.key ≠ fr.page ∧ item.value ≠ fr.p_mac
  | .setInt p x => ∀ item ∈ w.tag.nodes, item.key = p → w.mem.int p = x
  | .setMac p t => ∀ item ∈ w.tag.nodes, item.value = p → w.mem.mac p = t

theorem CodecAES_encrypt_logged (s : σ) (log : List Final) (codec : Codec) (data : Bytes)
    (p_mac : Tag) (useWriteKey : Bool) : ∃ s' codec' dst tag rc,
      CodecAES u.logged (s, log) codec true data p_mac useWriteKey =
        ((s', .encrypt data tag rc :: log), codec', dst, tag) := by
  simp only [CodecAES, reset_logged]
  exact ⟨_, _, _, _, _, rfl⟩

/-- The memory of an encryption when it sets the tag of the body. -/
def bodyCells (m : Mem) (fr : Frame) (page : BitVec 32) (tag : Tag) : Mem :=
  ((m.setInt fr.page page).setMac fr.p_mac Tag.zero).setMac fr.p_mac tag

/-- An encryption of a page other than 1 is one final call and one `hm_set`. -/
theorem encrypt_call (w : World σ Hashmap) (codec : Codec) (fr : Frame) {page : BitVec 32}
    (data : Bytes) (useWriteKey : Bool) (other : page ≠ 1) : ∃ s' tag rc, ∀ m' map' n,
      hm_set .succeed (bodyCells w.mem fr page tag) w.tag fr.page fr.p_mac = some (m', map', n) →
      callerStep u w (.encrypt codec fr page data useWriteKey) =
        some (⟨s', m', map'⟩, [.encrypt data tag rc]) := by
  obtain ⟨s', codec', dst, tag, rc, aes⟩ :=
    CodecAES_encrypt_logged u w.tee [] codec data Tag.zero useWriteKey
  refine ⟨s', tag, rc, ?_⟩
  intro m' map' n set
  rw [bodyCells] at set
  simp only [callerStep, CodecEncrypt, if_neg other, hashmapStore, Option.bind_eq_bind,
    Option.bind_some, List.drop_zero, Mem.setMac_mac, ↓reduceIte, aes, set, Option.map_some]

/-- The entries are the recorded tags, and only heap blocks are freed. -/
structure Keeps (heap : Ptr → Prop) (w₀ : World σ Hashmap) (h : List (CallerOp × List Final))
    (w : World σ Hashmap) : Prop where
  table : ∃ items, Table w.mem w.tag items
  entries : ∀ k tag, (k, tag) ∈ w.tag.entries w.mem ↔
    recorded (w₀.tag.entries w₀.mem) h k = some tag
  freed : ∀ p ∈ w.mem.freed, p ∈ w₀.mem.freed ∨ heap p

variable {heap : Ptr → Prop} {w₀ : World σ Hashmap}

theorem Keeps.start {items : List (List Item)} (t : Table w₀.mem w₀.tag items) :
    Keeps heap w₀ [] w₀ where
  table := ⟨items, t⟩
  freed p before := .inl before
  entries k tag := by
    rw [recorded, Option.map_eq_some_iff]
    constructor
    · intro entry
      obtain ⟨e, found⟩ : ∃ e, (w₀.tag.entries w₀.mem).find? (·.1 = k) = some e := by
        rw [← Option.isSome_iff_exists, List.find?_isSome]
        exact ⟨(k, tag), entry, decide_eq_true rfl⟩
      have key : e.1 = k := by simpa using List.find?_some found
      have there : (k, e.2) ∈ w₀.tag.entries w₀.mem := key ▸ List.mem_of_find?_eq_some found
      exact ⟨e, found, t.entry_unique there entry⟩
    · rintro ⟨e, found, rfl⟩
      have key : e.1 = k := by simpa using List.find?_some found
      rw [← key]
      exact List.mem_of_find?_eq_some found

/-- An assignment that changes no cell in use. -/
theorem Keeps.poke {h : List (CallerOp × List Final)} {w : World σ Hashmap}
    (keeps : Keeps heap w₀ h w) {m : Mem} (freed : m.freed = w.mem.freed)
    (same : ∀ item ∈ w.tag.nodes,
      m.int item.key = w.mem.int item.key ∧ m.mac item.value = w.mem.mac item.value)
    {op : CallerOp} (quiet : ∀ log, recorded (w₀.tag.entries w₀.mem) ((op, log) :: h) =
      recorded (w₀.tag.entries w₀.mem) h) (log : List Final) :
    Keeps heap w₀ ((op, log) :: h) { w with mem := m } := by
  obtain ⟨items, t⟩ := keeps.table
  refine ⟨⟨items, t.congr fun item inside => (same item inside).1⟩, ?_, ?_⟩
  · intro k tag
    rw [quiet, ← keeps.entries, Hashmap.mem_entries, Hashmap.mem_entries]
    constructor
    · rintro ⟨item, inside, rfl, rfl⟩
      exact ⟨item, inside, (same item inside).1.symm, (same item inside).2.symm⟩
    · rintro ⟨item, inside, rfl, rfl⟩
      exact ⟨item, inside, same item inside⟩
  · rw [freed]
    exact keeps.freed

/-- The entries after an insertion: the new one, and those of other page numbers. -/
theorem mem_entries_set {before m : Mem} {map map' : Hashmap} {item : Item} {page : BitVec 32}
    {tag : Tag}
    (members : ∀ x, x ∈ map'.nodes ↔ x = item ∨ x ∈ map.nodes ∧ m.int x.key ≠ page)
    (key : m.int item.key = page) (value : m.mac item.value = tag)
    (keys : ∀ x ∈ map.nodes, m.int x.key = before.int x.key)
    (values : ∀ x ∈ map.nodes, before.int x.key ≠ page → m.mac x.value = before.mac x.value)
    (k : BitVec 32) (tag' : Tag) :
    (k, tag') ∈ map'.entries m ↔
      if k = page then tag' = tag else (k, tag') ∈ map.entries before := by
  rw [Hashmap.mem_entries]
  split
  · rename_i here
    subst here
    constructor
    · rintro ⟨x, member, held, rfl⟩
      rcases (members x).mp member with rfl | ⟨-, foreign⟩
      · exact value
      · exact absurd held foreign
    · rintro rfl
      exact ⟨item, (members item).mpr (.inl rfl), key, value⟩
  · rename_i here
    rw [Hashmap.mem_entries]
    constructor
    · rintro ⟨x, member, rfl, rfl⟩
      rcases (members x).mp member with rfl | ⟨older, foreign⟩
      · exact absurd key here
      · rw [keys x older] at foreign
        exact ⟨x, older, (keys x older).symm, (values x older foreign).symm⟩
    · rintro ⟨x, older, rfl, rfl⟩
      have other : m.int x.key ≠ page := (keys x older).symm ▸ here
      exact ⟨x, (members x).mpr (.inr ⟨older, other⟩), keys x older, values x older here⟩

theorem Keeps.encrypt {h : List (CallerOp × List Final)} {w : World σ Hashmap}
    (keeps : Keeps heap w₀ h w) {codec : Codec} {fr : Frame} {page : BitVec 32} {data : Bytes}
    {useWriteKey : Bool} (ok : KeepsCells heap w (.encrypt codec fr page data useWriteKey)) :
    ∃ w' log, callerStep u w (.encrypt codec fr page data useWriteKey) = some (w', log) ∧
      Keeps heap w₀ ((.encrypt codec fr page data useWriteKey, log) :: h) w' := by
  obtain ⟨⟨nonzero, inside⟩, other, cells⟩ := ok
  obtain ⟨items, t⟩ := keeps.table
  obtain ⟨s', tag, rc, call⟩ := encrypt_call u w codec fr data useWriteKey other
  generalize hm : bodyCells w.mem fr page tag = m at call
  have pageCell : m.int fr.page = page := by
    rw [← hm]
    exact if_pos rfl
  have macCell : m.mac fr.p_mac = tag := by
    rw [← hm]
    exact if_pos rfl
  have keys : ∀ item ∈ w.tag.nodes, m.int item.key = w.mem.int item.key := by
    intro item member
    rw [← hm]
    by_cases here : item.key = fr.page
    · have own : w.mem.int item.key = page := by
        by_contra foreign
        have apart := cells item member
        rw [if_neg foreign] at apart
        exact apart.1 here
      rw [own, here]
      exact if_pos rfl
    · exact if_neg here
  have values : ∀ item ∈ w.tag.nodes, w.mem.int item.key ≠ page →
      m.mac item.value = w.mem.mac item.value := by
    intro item member foreign
    have apart := cells item member
    rw [if_neg foreign] at apart
    rw [← hm]
    exact (if_neg apart.2).trans (if_neg apart.2)
  have poked : Table m w.tag items := t.congr keys
  rw [← pageCell] at nonzero inside
  obtain ⟨m', map', items', item, set, t', -, hv, hc, sameInt, sameMac, members, frees⟩ :=
    poked.set fr.notNull.1 fr.notNull.2.2 nonzero inside
  rw [sameInt, pageCell] at hc
  rw [pageCell] at members
  have value : m.mac item.value = tag := by rw [hv, macCell]
  have entries := mem_entries_set members hc value keys values
  refine ⟨⟨s', m', map'⟩, _, call m' map' 1 set, ⟨items', t'⟩, ?_, ?_⟩
  · intro k tag'
    have sameEntry : Item.entry m' = Item.entry m := by
      funext x
      rw [Item.entry, Item.entry, sameInt, sameMac]
    rw [Hashmap.entries, sameEntry, ← Hashmap.entries, entries]
    by_cases here : k = page
    · have made : (tagsOf [Final.encrypt data tag rc])[0]? = some tag := rfl
      rw [if_pos here, recorded, if_pos here, made, Option.some_inj]
      exact eq_comm
    · have notHeader : ¬ (k = 0 ∧ page = 1) := fun header => other header.2
      rw [if_neg here, recorded, if_neg here, if_neg notHeader]
      exact keeps.entries k tag'
  · intro p hp
    rcases frees p hp with before | ⟨old, member, held, rfl, replaced⟩
    · rw [← hm] at before
      exact keeps.freed p before
    · have own := cells old member
      rw [pageCell, keys old member] at held
      rw [if_pos held] at own
      exact .inr (own.resolve_left replaced)

theorem Keeps.step {h : List (CallerOp × List Final)} {w : World σ Hashmap}
    (keeps : Keeps heap w₀ h w) {op : CallerOp} (ok : KeepsCells heap w op) :
    ∃ w' log, callerStep u w op = some (w', log) ∧ Keeps heap w₀ ((op, log) :: h) w' := by
  cases op with
  | encrypt codec fr page data useWriteKey => exact keeps.encrypt u ok
  | setInt p x =>
    refine ⟨_, _, rfl, keeps.poke (m := w.mem.setInt p x) rfl ?_ (fun _ => rfl) []⟩
    intro item member
    constructor
    · rw [Mem.setInt_int]
      split
      · rename_i shared
        rw [shared]
        exact (ok item member shared).symm
      · rfl
    · rfl
  | setMac p t =>
    refine ⟨_, _, rfl, keeps.poke (m := w.mem.setMac p t) rfl ?_ (fun _ => rfl) []⟩
    intro item member
    constructor
    · rfl
    · rw [Mem.setMac_mac]
      split
      · rename_i shared
        rw [shared]
        exact (ok item member shared).symm
      · rfl

end

/-- Locals at the addresses 32, 40 and 48. -/
def Frame.second : Frame := ⟨32, 40, 48, by decide, by decide⟩

end TeeSqlite
