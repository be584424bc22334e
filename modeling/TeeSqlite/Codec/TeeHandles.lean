import Mathlib.Logic.Function.Basic
import TeeSqlite.Lib.Handles
import TeeSqlite.Lib.Runs
import TeeSqlite.Codec.Authentic
import TeeSqlite.Codec.Rekey

/-! The handles of the codecs. `reset` frees what is in the two handle variables of its
codec, and nothing writes them before: they are as `sqlite3_malloc` left them. -/
namespace TeeSqlite
open ByteFile Handles Runs

/-- The calls for handles so far, those of operations and those of key objects, each with
the codec it was made for. A codec is known by a number. -/
structure Ledgers where
  caller : Nat
  ops : Handles.Log Nat Handle
  keys : Handles.Log Nat Handle

/-- The same calls with a record of the ones for handles. -/
def TeeCalls.ledgered {σ : Type} (u : TeeCalls σ) : TeeCalls (σ × Ledgers) where
  TEE_AllocateOperation s old mode :=
    let (s', rc, op) := u.TEE_AllocateOperation s.1 old mode
    ((s', { s.2 with ops := .got s.2.caller (rc = TEE_SUCCESS) op :: s.2.ops }), rc, op)
  TEE_FreeOperation s op :=
    (u.TEE_FreeOperation s.1 op, { s.2 with ops := .freed s.2.caller op :: s.2.ops })
  TEE_AllocateTransientObject s old :=
    let (s', rc, obj) := u.TEE_AllocateTransientObject s.1 old
    ((s', { s.2 with keys := .got s.2.caller (rc = TEE_SUCCESS) obj :: s.2.keys }), rc, obj)
  TEE_FreeTransientObject s obj :=
    (u.TEE_FreeTransientObject s.1 obj, { s.2 with keys := .freed s.2.caller obj :: s.2.keys })
  TEE_PopulateTransientObject s obj key :=
    let (s', rc) := u.TEE_PopulateTransientObject s.1 obj key
    ((s', s.2), rc)
  TEE_SetOperationKey s op obj :=
    let (s', rc) := u.TEE_SetOperationKey s.1 op obj
    ((s', s.2), rc)
  TEE_AEInit s op nonce :=
    let (s', rc) := u.TEE_AEInit s.1 op nonce
    ((s', s.2), rc)
  TEE_AEEncryptFinal s op src :=
    let (s', rc, dst, tag) := u.TEE_AEEncryptFinal s.1 op src
    ((s', s.2), rc, dst, tag)
  TEE_AEDecryptFinal s op src tag :=
    let (s', rc, dst) := u.TEE_AEDecryptFinal s.1 op src tag
    ((s', s.2), rc, dst)

/-- The caller renews its two variables any number of times. -/
structure Renewed (L : Ledgers) (codec : Codec) (L' : Ledgers) (codec' : Codec) : Prop where
  caller : L'.caller = L.caller
  ops : Renewals TEE_HANDLE_NULL L.caller codec.test_op_handle L.ops codec'.test_op_handle L'.ops
  keys : Renewals TEE_HANDLE_NULL L.caller codec.test_key_handle L.keys codec'.test_key_handle
    L'.keys

namespace Renewed
variable {L L' L'' : Ledgers} {codec codec' codec'' : Codec}

theorem refl : Renewed L codec L codec := ⟨rfl, .none, .none⟩

theorem trans (first : Renewed L codec L' codec') (second : Renewed L' codec' L'' codec'') :
    Renewed L codec L'' codec'' :=
  ⟨second.caller.trans first.caller, first.ops.trans (first.caller ▸ second.ops),
    first.keys.trans (first.caller ▸ second.keys)⟩

end Renewed

section
variable {σ τ : Type} (u : TeeCalls σ) (t : TagStore τ)

theorem reset_renews (s : σ × Ledgers) (codec : Codec) (isenc : Bool) (key : Key) :
    Renewed s.2 codec (reset u.ledgered s codec isenc key).1.2
      (reset u.ledgered s codec isenc key).2 := by
  have op : ∃ ok h, (reset u.ledgered s codec isenc key).2.test_op_handle = h ∧
      (reset u.ledgered s codec isenc key).1.2.ops =
        renew TEE_HANDLE_NULL s.2.caller codec.test_op_handle ok h s.2.ops := by
    unfold reset renew TeeCalls.ledgered
    split_ifs <;> exact ⟨_, _, rfl, rfl⟩
  have obj : ∃ ok h, (reset u.ledgered s codec isenc key).2.test_key_handle = h ∧
      (reset u.ledgered s codec isenc key).1.2.keys =
        renew TEE_HANDLE_NULL s.2.caller codec.test_key_handle ok h s.2.keys := by
    unfold reset renew TeeCalls.ledgered
    split_ifs <;> exact ⟨_, _, rfl, rfl⟩
  obtain ⟨ok, h, inOp, ops⟩ := op
  obtain ⟨ok', h', inKey, keys⟩ := obj
  refine ⟨?_, ?_, ?_⟩
  · unfold reset TeeCalls.ledgered
    split_ifs <;> rfl
  · rw [inOp, ops]
    exact .more ok h .none
  · rw [inKey, keys]
    exact .more ok' h' .none

theorem CodecAES_renews (s : σ × Ledgers) (codec : Codec) (encrypt : Bool) (data : Bytes)
    (p_mac : Tag) (useWriteKey : Bool) :
    Renewed s.2 codec (CodecAES u.ledgered s codec encrypt data p_mac useWriteKey).1.2
      (CodecAES u.ledgered s codec encrypt data p_mac useWriteKey).2.1 := by
  unfold CodecAES
  generalize (if useWriteKey then codec.m_writeKey else codec.m_readKey) = key
  cases encrypt with
  | false => exact reset_renews u s codec false key
  | true => exact reset_renews u s codec true key

theorem renews_rule : AesRule u.ledgered fun x y => Renewed x.1.2 x.2 y.1.2 y.2 where
  refl _ := .refl
  trans first second := first.trans second
  aes s codec encrypt data p_mac useWriteKey :=
    CodecAES_renews u s codec encrypt data p_mac useWriteKey
  buffer _ renewed := ⟨renewed.caller, renewed.ops, renewed.keys⟩

/-- A page passes through the codec with any number of renewals. -/
theorem sqlite3Codec_renews {w : World (σ × Ledgers) τ} {codec : Codec} {fr : Frame} {data : Bytes}
    {page : BitVec 32} {nMode : Nat} {c : Called (σ × Ledgers) τ}
    (h : sqlite3Codec u.ledgered t w (some codec) fr data page nMode = some c) :
    ∃ codec', c.codec = some codec' ∧ Renewed w.tee.2 codec c.world.tee.2 codec' :=
  (renews_rule u).call h

end

/-- The codecs of a TA: what they share, the databases of each connection, the numbers of
the codecs that these have, and the number of the next one. -/
structure TaState (σ τ : Type) where
  world : World (σ × Ledgers) τ
  conns : Nat → List Db
  number : Nat × Nat → Nat
  next : Nat

/-- A call in the TA for a database of a connection. A rekey is what it does before its
transaction, the pages it passes, and what it does after. -/
inductive TaCall
  | sqlite3CodecAttach (conn : Nat) (fresh : Codec) (nDb : Nat) (zKey : Option Pointee) (nKey : Int)
  | rekeyBegins (conn : Nat) (fresh : Codec) (nDb : Nat) (zKey : Option Pointee) (nKey : Int)
  | rekeyEnds (conn nDb : Nat) (rc : ResultCode)
  | sqlite3Codec (conn nDb : Nat) (fr : Frame) (data : Bytes) (nPageNum : BitVec 32) (nMode : Nat)

/-- An attachment that gives its database a codec. -/
def attaches (aDb : List Db) (nDb : Nat) (zKey : Option Pointee) (nKey : Int) : Bool :=
  0 < nKey ∧ (zKey.isSome ∨ nDb ≠ 0 ∧ (aDb.head?.bind Db.pCodec).any Codec.m_isEncrypted)

namespace TaState
variable {σ τ : Type} (ta : TaState σ τ)

abbrev ledgers : Ledgers := ta.world.tee.2

/-- The TA before any key is set. -/
def start (tee : σ) (mem : Mem) (tag : τ) (bts : Nat → List Btree) : TaState σ τ where
  world := ⟨(tee, ⟨0, [], []⟩), mem, tag⟩
  conns conn := (bts conn).map fun bt => ⟨bt, none⟩
  number _ := 0
  next := 0

/-- The databases of one connection are set, in the world that is there then. -/
def holding (world : World (σ × Ledgers) τ) (conn : Nat) (aDb : List Db) : TaState σ τ where
  world := world
  conns := Function.update ta.conns conn aDb
  number := ta.number
  next := ta.next

/-- A codec of its own for a database, in the memory `fresh`. -/
def making (conn nDb : Nat) (fresh : Codec) (aDb : List Db) : TaState σ τ where
  world := { ta.world with tee := (ta.world.tee.1, { ta.ledgers with
    ops := .found ta.next fresh.test_op_handle :: ta.ledgers.ops,
    keys := .found ta.next fresh.test_key_handle :: ta.ledgers.keys }) }
  conns := Function.update ta.conns conn aDb
  number := Function.update ta.number (conn, nDb) ta.next
  next := ta.next + 1

/-- The world as the codec with a number finds it. -/
def worldOf (i : Nat) : World (σ × Ledgers) τ :=
  { ta.world with tee := (ta.world.tee.1, { ta.ledgers with caller := i }) }

/-- The codec of a database of a connection. -/
def codecAt (place : Nat × Nat) : Option Codec := (ta.conns place.1)[place.2]?.bind Db.pCodec

end TaState

section
variable {σ τ : Type} (u : TeeCalls σ) (t : TagStore τ)

/-- An output says nothing. No next state is a database that there is not, or a call that
goes wrong inside the tag map. -/
def taStep (ta : TaState σ τ) : TaCall → Option (TaState σ τ × Unit)
  | .sqlite3CodecAttach conn fresh nDb zKey nKey =>
    (sqlite3CodecAttach (ta.conns conn) fresh nDb zKey nKey).map fun aDb =>
      (if attaches (ta.conns conn) nDb zKey nKey then ta.making conn nDb fresh aDb
        else ta.holding ta.world conn aDb, ())
  | .rekeyBegins conn fresh nDb zKey nKey => do
    let d ← (ta.conns conn)[nDb]?
    match rekeyCodec d fresh zKey nKey with
    | none => some (ta, ())
    | some codec =>
      let aDb := (ta.conns conn).set nDb { d with pCodec := some codec }
      some (if d.pCodec.isNone then ta.making conn nDb fresh aDb
        else ta.holding ta.world conn aDb, ())
  | .rekeyEnds conn nDb rc => do
    let d ← (ta.conns conn)[nDb]?
    let codec ← d.pCodec
    let codec := rekeyDone codec rc
    let pCodec := if codec.m_isEncrypted then some codec else none
    some (ta.holding ta.world conn ((ta.conns conn).set nDb { d with pCodec }), ())
  | .sqlite3Codec conn nDb fr data nPageNum nMode => do
    let d ← (ta.conns conn)[nDb]?
    let called ← sqlite3Codec u.ledgered t (ta.worldOf (ta.number (conn, nDb))) d.pCodec fr data
      nPageNum nMode
    let aDb := (ta.conns conn).set nDb { d with pCodec := called.codec }
    some (ta.holding called.world conn aDb, ())

end

/-- The variables of a codec are as the memory it is in has them. -/
theorem attach_spec {aDb aDb' : List Db} {fresh : Codec} {nDb : Nat} {zKey : Option Pointee}
    {nKey : Int} (h : sqlite3CodecAttach aDb fresh nDb zKey nKey = some aDb') :
    if attaches aDb nDb zKey nKey then
      ∃ d codec, aDb[nDb]? = some d ∧ aDb' = aDb.set nDb { d with pCodec := some codec } ∧
        codec.test_op_handle = fresh.test_op_handle ∧
        codec.test_key_handle = fresh.test_key_handle
    else aDb' = aDb := by
  unfold sqlite3CodecAttach at h
  cases found : aDb[nDb]? with
  | none =>
    rw [found] at h
    cases h
  | some d =>
    rw [found] at h
    cases zKey with
    | some key =>
      by_cases positive : 0 < nKey
      · simp only [positive, ↓reduceIte, Option.some.injEq] at h
        simp only [attaches, positive, Option.isSome_some, true_or, and_self, decide_true,
          ↓reduceIte]
        exact ⟨d, _, rfl, h.symm, rfl, rfl⟩
      · simp only [positive, ↓reduceIte, Option.some.injEq] at h
        simp only [attaches, positive, false_and, decide_false, Bool.false_eq_true, ↓reduceIte]
        exact h.symm
    | none =>
      by_cases asked : nDb ≠ 0 ∧ 0 < nKey
      · simp only [asked, ne_eq, not_false_eq_true, and_self, ↓reduceIte] at h
        cases main : aDb.head?.bind Db.pCodec with
        | none =>
          simp only [main, Option.some.injEq] at h
          simp only [attaches, main, Option.any_none, Option.isSome_none, Bool.false_eq_true,
            and_false, or_false, decide_false, ↓reduceIte]
          exact h.symm
        | some mainCodec =>
          by_cases encrypted : mainCodec.m_isEncrypted = true
          · simp only [main, encrypted, ↓reduceIte, Option.some.injEq] at h
            simp only [attaches, main, asked, encrypted, Option.any_some, ne_eq, not_false_eq_true,
              and_self, or_true, decide_true, ↓reduceIte]
            exact ⟨d, _, rfl, h.symm, rfl, rfl⟩
          · simp only [main, encrypted, Bool.false_eq_true, ↓reduceIte, Option.some.injEq] at h
            simp only [attaches, main, encrypted, Option.any_some, Option.isSome_none,
              Bool.false_eq_true, and_false, or_false, decide_false, ↓reduceIte]
            exact h.symm
      · have unasked : attaches aDb nDb none nKey = false := by
          apply decide_eq_false
          rintro ⟨positive, given | ⟨attached, -⟩⟩
          · cases given
          · exact asked ⟨attached, positive⟩
        simp only [asked, ↓reduceIte, Option.some.injEq] at h
        simp only [unasked, Bool.false_eq_true, ↓reduceIte]
        exact h.symm

theorem rekeyCodec_handles {d : Db} {fresh codec : Codec} {zKey : Option Pointee} {nKey : Int}
    (h : rekeyCodec d fresh zKey nKey = some codec) :
    codec.test_op_handle = (d.pCodec.getD fresh).test_op_handle ∧
      codec.test_key_handle = (d.pCodec.getD fresh).test_key_handle := by
  unfold rekeyCodec at h
  cases held : d.pCodec.filter Codec.m_isEncrypted with
  | none =>
    rw [held] at h
    cases key : if nKey = 0 then none else zKey with
    | none =>
      rw [key] at h
      cases h
    | some key' =>
      rw [key] at h
      cases h
      cases d.pCodec with
      | none => exact ⟨rfl, rfl⟩
      | some codec => exact ⟨rfl, rfl⟩
  | some old =>
    rw [held] at h
    rw [(Option.filter_eq_some_iff.mp held).1, Option.getD_some]
    cases key : if nKey = 0 then none else zKey with
    | none =>
      rw [key] at h
      cases h
      exact ⟨rfl, rfl⟩
    | some key' =>
      rw [key] at h
      cases h
      exact ⟨rfl, rfl⟩

theorem rekeyDone_handles (codec : Codec) (rc : ResultCode) :
    (rekeyDone codec rc).test_op_handle = codec.test_op_handle ∧
      (rekeyDone codec rc).test_key_handle = codec.test_key_handle := by
  unfold rekeyDone
  split_ifs <;> exact ⟨rfl, rfl⟩

namespace TaState
variable {σ τ : Type} {ta ta' : TaState σ τ} {conn nDb : Nat} {d d' : Db}

theorem codecAt_found (found : (ta.conns conn)[nDb]? = some d) :
    ta.codecAt (conn, nDb) = d.pCodec := by
  rw [codecAt, found]
  rfl

/-- The codecs after one database of a connection is set. -/
theorem codecAt_set (found : (ta.conns conn)[nDb]? = some d)
    (conns : ta'.conns = Function.update ta.conns conn ((ta.conns conn).set nDb d'))
    (place : Nat × Nat) :
    ta'.codecAt place = if place = (conn, nDb) then d'.pCodec else ta.codecAt place := by
  obtain ⟨conn', nDb'⟩ := place
  have inside : nDb < (ta.conns conn).length := (List.getElem?_eq_some_iff.mp found).1
  rw [codecAt, conns]
  by_cases same : conn' = conn
  · subst same
    rw [Function.update_self]
    by_cases here : nDb' = nDb
    · subst here
      rw [if_pos rfl, List.getElem?_set_self inside]
      rfl
    · have other : (conn', nDb') ≠ (conn', nDb) := fun both => here (Prod.mk.inj both).2
      rw [if_neg other, List.getElem?_set_ne (Ne.symm here)]
      rfl
  · have other : (conn', nDb') ≠ (conn, nDb) := fun both => same (Prod.mk.inj both).1
    rw [if_neg other, Function.update_of_ne same]
    rfl

end TaState

/-- What is in the variables of a codec, by the calls made for its number. -/
structure Ledgers.Has (L : Ledgers) (i : Nat) (codec : Codec) : Prop where
  op : var i L.ops = some codec.test_op_handle
  key : var i L.keys = some codec.test_key_handle

/-- The ledgers tell what is in the variables of every codec, and no two have a number. -/
structure Consistent {σ τ : Type} (ta : TaState σ τ) : Prop where
  ops : Traffic TEE_HANDLE_NULL ta.ledgers.ops
  keys : Traffic TEE_HANDLE_NULL ta.ledgers.keys
  unmade : ∀ i, ta.next ≤ i → var i ta.ledgers.ops = none ∧ var i ta.ledgers.keys = none
  has : ∀ place codec, ta.codecAt place = some codec → ta.ledgers.Has (ta.number place) codec
  apart : ∀ place place' codec codec', ta.codecAt place = some codec →
    ta.codecAt place' = some codec' → ta.number place = ta.number place' → place = place'

namespace Consistent
variable {σ τ : Type} {ta ta' : TaState σ τ}

theorem start (tee : σ) (mem : Mem) (tag : τ) (bts : Nat → List Btree) :
    Consistent (TaState.start tee mem tag bts) := by
  have none_ : ∀ place, (TaState.start tee mem tag bts).codecAt place = none := by
    intro place
    rw [TaState.codecAt, Option.bind_eq_none_iff]
    intro d found
    obtain ⟨bt, -, rfl⟩ := List.mem_map.mp (List.mem_of_getElem? found)
    rfl
  refine ⟨.start, .start, fun _ _ => ⟨rfl, rfl⟩, ?_, ?_⟩
  · intro place codec held
    rw [none_] at held
    cases held
  · intro place place' codec codec' held
    rw [none_] at held
    cases held

theorem made (ok : Consistent ta) {place : Nat × Nat} {codec : Codec}
    (held : ta.codecAt place = some codec) : ta.next ≠ ta.number place := by
  intro fresh
  have unmade := (ok.unmade ta.next (Nat.le_refl _)).1
  rw [fresh, (ok.has place codec held).op] at unmade
  cases unmade

/-- What is shared besides the ledgers changes, and codecs are dropped. -/
theorem same (ok : Consistent ta) (ta' : TaState σ τ) (ops : ta'.ledgers.ops = ta.ledgers.ops)
    (keys : ta'.ledgers.keys = ta.ledgers.keys) (number : ta'.number = ta.number)
    (next : ta'.next = ta.next)
    (codecs : ∀ place c, ta'.codecAt place = some c → ta.codecAt place = some c) :
    Consistent ta' := by
  refine ⟨ops ▸ ok.ops, keys ▸ ok.keys, ?_, ?_, ?_⟩
  · rw [next, ops, keys]
    exact ok.unmade
  · intro place c held
    obtain ⟨op, key⟩ := ok.has place c (codecs place c held)
    exact ⟨by rw [ops, number, op], by rw [keys, number, key]⟩
  · intro place place' c c' held held'
    rw [number]
    exact ok.apart place place' c c' (codecs place c held) (codecs place' c' held')

/-- The codec of a database renews its variables; it may be dropped then. -/
theorem renews (ok : Consistent ta) (ta' : TaState σ τ) {place : Nat × Nat} {codec codec' : Codec}
    (held : ta.codecAt place = some codec)
    (ops : Renewals TEE_HANDLE_NULL (ta.number place) codec.test_op_handle ta.ledgers.ops
      codec'.test_op_handle ta'.ledgers.ops)
    (keys : Renewals TEE_HANDLE_NULL (ta.number place) codec.test_key_handle ta.ledgers.keys
      codec'.test_key_handle ta'.ledgers.keys)
    (number : ta'.number = ta.number) (next : ta'.next = ta.next)
    (codecs : ∀ place' c, ta'.codecAt place' = some c →
      if place' = place then c.test_op_handle = codec'.test_op_handle ∧
        c.test_key_handle = codec'.test_key_handle
      else ta.codecAt place' = some c) : Consistent ta' := by
  obtain ⟨opsTraffic, opVar, opOthers⟩ := ops.traffic ok.ops (ok.has place codec held).op
  obtain ⟨keysTraffic, keyVar, keyOthers⟩ := keys.traffic ok.keys (ok.has place codec held).key
  have before {place' : Nat × Nat} {c : Codec} (held' : ta'.codecAt place' = some c) :
      ∃ c', ta.codecAt place' = some c' := by
    by_cases same : place' = place
    · exact ⟨codec, same ▸ held⟩
    · have kept := codecs place' c held'
      rw [if_neg same] at kept
      exact ⟨c, kept⟩
  refine ⟨opsTraffic, keysTraffic, ?_, ?_, ?_⟩
  · intro i unmade
    rw [next] at unmade
    have other : ta.number place ≠ i := by
      rintro rfl
      have none_ := (ok.unmade _ unmade).1
      rw [(ok.has place codec held).op] at none_
      cases none_
    rw [opOthers i other, keyOthers i other]
    exact ok.unmade i unmade
  · intro place' c held'
    have kept := codecs place' c held'
    rw [number]
    by_cases same : place' = place
    · rw [if_pos same] at kept
      subst same
      exact ⟨opVar.trans (congrArg some kept.1.symm), keyVar.trans (congrArg some kept.2.symm)⟩
    · rw [if_neg same] at kept
      have other : ta.number place ≠ ta.number place' := fun equal =>
        same (ok.apart place place' codec c held kept equal).symm
      obtain ⟨op, key⟩ := ok.has place' c kept
      exact ⟨(opOthers _ other).trans op, (keyOthers _ other).trans key⟩
  · intro place' place'' c c' held' held'' equal
    rw [number] at equal
    obtain ⟨b, before'⟩ := before held'
    obtain ⟨b', before''⟩ := before held''
    exact ok.apart place' place'' b b' before' before'' equal

/-- A database gets a codec of its own. -/
theorem makes (ok : Consistent ta) {conn nDb : Nat} {fresh : Codec} {aDb : List Db}
    (codecs : ∀ place c, (ta.making conn nDb fresh aDb).codecAt place = some c →
      if place = (conn, nDb) then c.test_op_handle = fresh.test_op_handle ∧
        c.test_key_handle = fresh.test_key_handle
      else ta.codecAt place = some c) : Consistent (ta.making conn nDb fresh aDb) := by
  have numbers (place : Nat × Nat) : (ta.making conn nDb fresh aDb).number place =
      if place = (conn, nDb) then ta.next else ta.number place := Function.update_apply _ _ _ _
  obtain ⟨opUnmade, keyUnmade⟩ := ok.unmade ta.next (Nat.le_refl _)
  refine ⟨.found _ ok.ops opUnmade, .found _ ok.keys keyUnmade, ?_, ?_, ?_⟩
  · intro i unmade
    have later : ta.next ≠ i := Nat.ne_of_lt unmade
    simp only [TaState.making, var, if_neg later]
    exact ok.unmade i (Nat.le_of_lt unmade)
  · intro place c held
    have kept := codecs place c held
    rw [numbers]
    split_ifs at kept ⊢
    · exact ⟨by simp [TaState.making, var, kept.1], by simp [TaState.making, var, kept.2]⟩
    · obtain ⟨op, key⟩ := ok.has place c kept
      have other := ok.made kept
      exact ⟨by simpa [TaState.making, var, other] using op,
        by simpa [TaState.making, var, other] using key⟩
  · intro place place' c c' held held' equal
    have kept := codecs place c held
    have kept' := codecs place' c' held'
    rw [numbers, numbers] at equal
    split_ifs at kept kept' equal with here here'
    · exact here.trans here'.symm
    · exact absurd equal (ok.made kept')
    · exact absurd equal.symm (ok.made kept)
    · exact ok.apart place place' c c' kept kept' equal

/-- A database is set without its handles being touched. -/
theorem sets (ok : Consistent ta) {conn nDb : Nat} {d d' : Db} {codec : Codec}
    (found : (ta.conns conn)[nDb]? = some d) (held : d.pCodec = some codec)
    (handles : ∀ c ∈ d'.pCodec, c.test_op_handle = codec.test_op_handle ∧
      c.test_key_handle = codec.test_key_handle) :
    Consistent (ta.holding ta.world conn ((ta.conns conn).set nDb d')) := by
  refine ok.renews _ ((TaState.codecAt_found found).trans held) .none .none rfl rfl ?_
  intro place c held'
  rw [TaState.codecAt_set found rfl] at held'
  split_ifs at held' ⊢
  · exact handles c held'
  · exact held'

end Consistent

section
variable {σ τ : Type} {u : TeeCalls σ} {t : TagStore τ} {ta ta' : TaState σ τ}

theorem attach_consistent (ok : Consistent ta) {conn : Nat} {fresh : Codec} {nDb : Nat}
    {zKey : Option Pointee} {nKey : Int} {aDb : List Db}
    (h : sqlite3CodecAttach (ta.conns conn) fresh nDb zKey nKey = some aDb) :
    Consistent (if attaches (ta.conns conn) nDb zKey nKey then ta.making conn nDb fresh aDb
      else ta.holding ta.world conn aDb) := by
  have spec := attach_spec h
  split_ifs at spec ⊢
  · obtain ⟨d, codec, found, rfl, op, key⟩ := spec
    apply ok.makes
    intro place c held
    rw [TaState.codecAt_set found rfl] at held
    split_ifs at held ⊢
    · obtain rfl := Option.some.inj held
      exact ⟨op, key⟩
    · exact held
  · rw [spec, TaState.holding, Function.update_eq_self]
    exact ok

theorem taStep_consistent (ok : Consistent ta) {call : TaCall}
    (h : taStep u t ta call = some (ta', ())) : Consistent ta' := by
  cases call with
  | sqlite3CodecAttach conn fresh nDb zKey nKey =>
    obtain ⟨aDb, attached, made⟩ := Option.map_eq_some_iff.mp h
    obtain ⟨rfl, -⟩ := Prod.mk.inj made
    exact attach_consistent ok attached
  | rekeyBegins conn fresh nDb zKey nKey =>
    obtain ⟨d, found, begun⟩ := Option.bind_eq_some_iff.mp h
    cases chosen : rekeyCodec d fresh zKey nKey with
    | none =>
      rw [chosen] at begun
      cases begun
      exact ok
    | some codec =>
      have handles := rekeyCodec_handles chosen
      rw [chosen] at begun
      cases held : d.pCodec with
      | none =>
        rw [held] at begun handles
        cases begun
        apply ok.makes
        intro place c held'
        rw [TaState.codecAt_set found rfl] at held'
        split_ifs at held' ⊢
        · obtain rfl := Option.some.inj held'
          exact handles
        · exact held'
      | some old =>
        rw [held] at begun handles
        cases begun
        apply ok.sets found held
        rintro c ⟨⟩
        exact handles
  | rekeyEnds conn nDb rc =>
    obtain ⟨d, found, ended⟩ := Option.bind_eq_some_iff.mp h
    obtain ⟨codec, held, ended⟩ := Option.bind_eq_some_iff.mp ended
    cases ended
    apply ok.sets found held
    intro c kept
    dsimp only at kept
    split_ifs at kept
    · obtain rfl := Option.some.inj kept
      exact rekeyDone_handles codec rc
    · cases kept
  | sqlite3Codec conn nDb fr data nPageNum nMode =>
    obtain ⟨d, found, called⟩ := Option.bind_eq_some_iff.mp h
    obtain ⟨c, passed, called⟩ := Option.bind_eq_some_iff.mp called
    cases called
    cases held : d.pCodec with
    | none =>
      rw [held] at passed
      cases passed
      refine ok.same _ rfl rfl rfl rfl ?_
      intro place c' held'
      rw [TaState.codecAt_set found rfl] at held'
      split_ifs at held'
      exact held'
    | some codec =>
      rw [held] at passed
      obtain ⟨codec', left, renewed⟩ := sqlite3Codec_renews u t passed
      refine ok.renews _ ((TaState.codecAt_found found).trans held) renewed.ops renewed.keys rfl
        rfl ?_
      intro place c' held'
      rw [TaState.codecAt_set found rfl] at held'
      split_ifs at held' ⊢
      · rw [left] at held'
        obtain rfl := Option.some.inj held'
        exact ⟨rfl, rfl⟩
      · exact held'

/-- The two steps of a rekey are what it does around its transaction. -/
theorem rekey_steps {π : Type} (p : PagerCalls π) (s : π) {db : Sqlite3}
    {zDbName : Option CTypes.CStr} {d : Db} {fresh codec : Codec} {zKey : Option Pointee}
    {nKey : Int} {conn : Nat} (found : db.aDb[dbFindIndex db zDbName]? = some d)
    (chosen : rekeyCodec d fresh zKey nKey = some codec) (conns : ta.conns conn = db.aDb) :
    let i := dbFindIndex db zDbName
    let ended := rekeyTransaction p (WX_PAGER_MJ_PGNO d.pBt.pageSize) s codec
    (∃ ta₁, taStep u t ta (.rekeyBegins conn fresh i zKey nKey) = some (ta₁, ()) ∧
      ta₁.conns conn = db.aDb.set i { d with pCodec := some codec }) ∧
    ∀ ta₂ : TaState σ τ, ta₂.conns conn = db.aDb.set i { d with pCodec := some ended.codec } →
      ∃ ta₃, taStep u t ta₂ (.rekeyEnds conn i ended.rc) = some (ta₃, ()) ∧
        sqlite3_rekey_v2 p s db fresh zDbName zKey nKey =
          some (ended.pager, { db with aDb := ta₃.conns conn }, ended.rc) := by
  intro i ended
  have inside : i < db.aDb.length := (List.getElem?_eq_some_iff.mp found).1
  constructor
  · let aDb := db.aDb.set i { d with pCodec := some codec }
    have begun : taStep u t ta (.rekeyBegins conn fresh i zKey nKey) =
        some (if d.pCodec.isNone then ta.making conn i fresh aDb
          else ta.holding ta.world conn aDb, ()) := by
      simp only [taStep, conns, i, aDb, found, chosen, Option.bind_eq_bind, Option.bind_some]
    refine ⟨_, begun, ?_⟩
    split_ifs <;> exact Function.update_self _ _ _
  · intro ta₂ conns₂
    have found₂ : (ta₂.conns conn)[i]? = some { d with pCodec := some ended.codec } := by
      rw [conns₂, List.getElem?_set_self inside]
    let done := rekeyDone ended.codec ended.rc
    let d₃ : Db := { d with pCodec := if done.m_isEncrypted then some done else none }
    have freed : taStep u t ta₂ (.rekeyEnds conn i ended.rc) =
        some (ta₂.holding ta₂.world conn ((ta₂.conns conn).set i d₃), ()) := by
      simp only [taStep, found₂, d₃, done, Option.bind_eq_bind, Option.bind_some]
    refine ⟨_, freed, ?_⟩
    rw [rekey_chosen found chosen]
    simp only [TaState.holding, Function.update_self, conns₂, List.set_set, i, ended, d₃, done]

theorem run_consistent {tee : σ} {mem : Mem} {tag : τ} {bts : Nat → List Btree}
    {h : List (TaCall × Unit)} (run : Run (taStep u t) Free (.start tee mem tag bts) h ta) :
    Consistent ta :=
  run.invariant (fun _ ta => Consistent ta) (.start tee mem tag bts)
    fun _ _ _ _ _ ok _ answer => taStep_consistent ok answer

end

namespace Ledgers
variable (L : Ledgers)

/-- What `reset` frees is what its codec got from the TEE and has not freed since, and no
other codec's. -/
def Disciplined : Prop := Handles.Disciplined L.ops ∧ Handles.Disciplined L.keys

/-- A successful allocation gives a handle that is not null and not in use. -/
def Honest : Prop := Handles.Honest TEE_HANDLE_NULL L.ops ∧ Handles.Honest TEE_HANDLE_NULL L.keys

/-- No codec is used when its memory came with a handle in it, or after a failed
allocation that left one in its variable. -/
def Clean : Prop := Handles.Clean TEE_HANDLE_NULL L.ops ∧ Handles.Clean TEE_HANDLE_NULL L.keys

end Ledgers

/-- **Handle discipline.** In every run, whatever the memory of the codecs holds and the
allocations give, the handles are used properly just when no codec is used whose memory,
or whose last allocation in failing, left a handle in a variable. -/
theorem handles_disciplined_iff {σ τ : Type} {u : TeeCalls σ} {t : TagStore τ} {tee : σ}
    {mem : Mem} {tag : τ} {bts : Nat → List Btree} {h : List (TaCall × Unit)} {ta : TaState σ τ}
    (run : Run (taStep u t) Free (.start tee mem tag bts) h ta) (honest : ta.ledgers.Honest) :
    ta.ledgers.Disciplined ↔ ta.ledgers.Clean := by
  have ok := run_consistent run
  exact and_congr (disciplined_iff_clean ok.ops honest.1) (disciplined_iff_clean ok.keys honest.2)

/-- A TEE that numbers its handles, as many as there are; after that an allocation fails
and leaves the variable as it was. -/
def numberingTee (handles : Nat) : TeeCalls Nat where
  TEE_AllocateOperation s old _ :=
    if s < handles then (s + 1, TEE_SUCCESS, s + 1) else (s, 0xFFFF000C, old)
  TEE_FreeOperation s _ := s
  TEE_AllocateTransientObject s old :=
    if s < handles then (s + 1, TEE_SUCCESS, s + 1) else (s, 0xFFFF000C, old)
  TEE_FreeTransientObject s _ := s
  TEE_PopulateTransientObject s _ _ := (s, TEE_SUCCESS)
  TEE_SetOperationKey s _ _ := (s, TEE_SUCCESS)
  TEE_AEInit s _ _ := (s, TEE_SUCCESS)
  TEE_AEEncryptFinal s _ src := (s, TEE_SUCCESS, ⟨src.reverse, List.length_reverse⟩, Tag.zero)
  TEE_AEDecryptFinal s _ src _ := (s, TEE_SUCCESS, ⟨src.reverse, List.length_reverse⟩)

/-- One database without a key. -/
def oneDatabase : TaState Nat TagMap :=
  .start 0 Mem.blank (fun _ => none) fun _ => [(Codec.keyed Tag.zero).m_bt]

/-- A key is set with a codec in a memory that has a handle for an operation. -/
def keyCall (op : Handle) : TaCall :=
  .sqlite3CodecAttach 0 { Codec.keyed Tag.zero with test_op_handle := op } 0 (some fun _ => 0) 16

/-- Page 2 is encrypted. -/
def pageCall : TaCall := .sqlite3Codec 0 0 .sample (List.replicate 512 0) 2 6

/-- A clean memory and allocations that succeed. -/
theorem two_pages_are_disciplined : ∃ h ta,
    Run (taStep (numberingTee 4) finiteMapStore) Free oneDatabase h ta ∧
    h.map Prod.fst = [pageCall, pageCall, keyCall TEE_HANDLE_NULL] ∧
    ta.ledgers.ops = [.got 0 true 3, .freed 0 1, .got 0 true 1, .found 0 0] ∧
    ta.ledgers.Disciplined := by
  let ledgers : Ledgers := ⟨0, [.got 0 true 3, .freed 0 1, .got 0 true 1, .found 0 0],
    [.got 0 true 4, .freed 0 2, .got 0 true 2, .found 0 0]⟩
  have honest : ledgers.Honest := by
    simp [ledgers, Ledgers.Honest, Handles.Honest, Live, TEE_HANDLE_NULL]
  have clean : ledgers.Clean := by
    simp [ledgers, Ledgers.Clean, Handles.Clean, Spoiled, TEE_HANDLE_NULL]
  have key : Run (taStep (numberingTee 4) finiteMapStore) Free oneDatabase _ _ :=
    .next .start trivial (rfl : taStep _ _ _ (keyCall TEE_HANDLE_NULL) = some (_, ()))
  have page := Run.next key trivial (rfl : taStep _ _ _ pageCall = some (_, ()))
  have again := Run.next page trivial (rfl : taStep _ _ _ pageCall = some (_, ()))
  exact ⟨_, _, again, rfl, rfl, (handles_disciplined_iff again honest).mpr clean⟩

/-- A handle that was in the memory of a codec is freed with the first page; and after an
allocation that failed the handle freed before it is freed once more. -/
theorem handles_are_freed_that_are_not_owned :
    (∃ h ta, Run (taStep (numberingTee 2) finiteMapStore) Free oneDatabase h ta ∧
      h.map Prod.fst = [pageCall, keyCall 7] ∧
      ta.ledgers.ops = [.got 0 true 1, .freed 0 7, .found 0 7] ∧
      ta.ledgers.Honest ∧ ¬ ta.ledgers.Disciplined) ∧
    ∃ h ta, Run (taStep (numberingTee 2) finiteMapStore) Free oneDatabase h ta ∧
      h.map Prod.fst = [pageCall, pageCall, pageCall, keyCall TEE_HANDLE_NULL] ∧
      ta.ledgers.ops = [.got 0 false 1, .freed 0 1, .got 0 false 1, .freed 0 1, .got 0 true 1,
        .found 0 0] ∧
      ta.ledgers.Honest ∧ ¬ ta.ledgers.Disciplined := by
  constructor
  · let ledgers : Ledgers := ⟨0, [.got 0 true 1, .freed 0 7, .found 0 7],
      [.got 0 true 2, .found 0 0]⟩
    have honest : ledgers.Honest := by
      simp [ledgers, Ledgers.Honest, Handles.Honest, Live, TEE_HANDLE_NULL]
    have broken : ¬ ledgers.Disciplined := by
      simp [ledgers, Ledgers.Disciplined, Handles.Disciplined, Owns]
    have key : Run (taStep (numberingTee 2) finiteMapStore) Free oneDatabase _ _ :=
      .next .start trivial (rfl : taStep _ _ _ (keyCall 7) = some (_, ()))
    have page := Run.next key trivial (rfl : taStep _ _ _ pageCall = some (_, ()))
    exact ⟨_, _, page, rfl, rfl, honest, broken⟩
  · let ledgers : Ledgers := ⟨0, [.got 0 false 1, .freed 0 1, .got 0 false 1, .freed 0 1,
      .got 0 true 1, .found 0 0], [.got 0 false 2, .freed 0 2, .got 0 false 2, .freed 0 2,
      .got 0 true 2, .found 0 0]⟩
    have honest : ledgers.Honest := by
      simp [ledgers, Ledgers.Honest, Handles.Honest, Live, TEE_HANDLE_NULL]
    have broken : ¬ ledgers.Disciplined := by
      simp [ledgers, Ledgers.Disciplined, Handles.Disciplined, Owns]
    have key : Run (taStep (numberingTee 2) finiteMapStore) Free oneDatabase _ _ :=
      .next .start trivial (rfl : taStep _ _ _ (keyCall TEE_HANDLE_NULL) = some (_, ()))
    have page := Run.next key trivial (rfl : taStep _ _ _ pageCall = some (_, ()))
    have second := Run.next page trivial (rfl : taStep _ _ _ pageCall = some (_, ()))
    have third := Run.next second trivial (rfl : taStep _ _ _ pageCall = some (_, ()))
    exact ⟨_, _, third, rfl, rfl, honest, broken⟩

end TeeSqlite
