import TeeSqlite.Lib.IdealAE
import TeeSqlite.Hashmap.Hashmap

/-! The calls of the TEE that encrypt and decrypt a page: any implementation, one
that keeps a record of what it was asked, and the one that never fails. -/
namespace TeeSqlite
open ByteFile AuthEnc

abbrev TEE_Result := BitVec 32

def TEE_SUCCESS : TEE_Result := 0
def TEE_ERROR_MAC_INVALID : TEE_Result := 0xFFFF3071

/-- A handle of an operation or of a key object; 0 is `TEE_HANDLE_NULL`. -/
abbrev Handle := Nat

def TEE_HANDLE_NULL : Handle := 0

inductive Mode
  | TEE_MODE_ENCRYPT | TEE_MODE_DECRYPT
  deriving DecidableEq

def KEYLENGTH : Nat := 16

abbrev Key := { k : Bytes // k.length = KEYLENGTH }

/-- The global `iv`, which no code writes. -/
def iv : Bytes := List.replicate 16 0

/-- What a destination buffer as long as `src` can hold. -/
abbrev Sized (src : Bytes) := { d : Bytes // d.length = src.length }

/-- The TEE functions that the codec calls, over a state of the TEE. Each call with a
result may return any; an allocation gets and returns the caller's handle variable. -/
structure TeeCalls (σ : Type) where
  TEE_AllocateOperation : σ → Handle → Mode → σ × TEE_Result × Handle
  TEE_FreeOperation : σ → Handle → σ
  TEE_AllocateTransientObject : σ → Handle → σ × TEE_Result × Handle
  TEE_FreeTransientObject : σ → Handle → σ
  TEE_PopulateTransientObject : σ → Handle → Key → σ × TEE_Result
  TEE_SetOperationKey : σ → Handle → Handle → σ × TEE_Result
  TEE_AEInit : σ → Handle → Bytes → σ × TEE_Result
  TEE_AEEncryptFinal : σ → Handle → (src : Bytes) → σ × TEE_Result × Sized src × Tag
  TEE_AEDecryptFinal : σ → Handle → (src : Bytes) → Tag → σ × TEE_Result × Sized src

/-- A call that ended an encryption or a decryption. -/
inductive Final
  | encrypt (src : Bytes) (tag : Tag) (rc : TEE_Result)
  | decrypt (src : Bytes) (tag : Tag) (rc : TEE_Result)
  deriving DecidableEq

/-- The same calls with a record of the final ones, the latest first. -/
def TeeCalls.logged {σ : Type} (u : TeeCalls σ) : TeeCalls (σ × List Final) where
  TEE_AllocateOperation s old mode :=
    let (s', rc, op) := u.TEE_AllocateOperation s.1 old mode
    ((s', s.2), rc, op)
  TEE_FreeOperation s op := (u.TEE_FreeOperation s.1 op, s.2)
  TEE_AllocateTransientObject s old :=
    let (s', rc, obj) := u.TEE_AllocateTransientObject s.1 old
    ((s', s.2), rc, obj)
  TEE_FreeTransientObject s obj := (u.TEE_FreeTransientObject s.1 obj, s.2)
  TEE_PopulateTransientObject s obj key :=
    let (s', rc) := u.TEE_PopulateTransientObject s.1 obj key
    ((s', s.2), rc)
  TEE_SetOperationKey s op obj :=
    let (s', rc) := u.TEE_SetOperationKey s.1 op obj
    ((s', s.2), rc)
  TEE_AEInit s op nonce :=
    let (s', rc) := u.TEE_AEInit s.1 op nonce
    ((s', s.2), rc)
  TEE_AEEncryptFinal s op src :=
    let (s', rc, dst, tag) := u.TEE_AEEncryptFinal s.1 op src
    ((s', .encrypt src tag rc :: s.2), rc, dst, tag)
  TEE_AEDecryptFinal s op src tag :=
    let (s', rc, dst) := u.TEE_AEDecryptFinal s.1 op src tag
    ((s', .decrypt src tag rc :: s.2), rc, dst)

/-- What an operation is set up with. -/
structure Setup where
  objKey : Key
  opKey : Key
  nonce : Bytes

/-- The AES-GCM of the device. -/
abbrev PageAE := IdealAE Key Bytes Tag

/-- A TEE whose calls succeed, around an ideal scheme. A decryption that fails
leaves its destination as it was. -/
def idealCalls (ae : PageAE) : TeeCalls Setup where
  TEE_AllocateOperation s _ _ := (s, TEE_SUCCESS, 1)
  TEE_FreeOperation s _ := s
  TEE_AllocateTransientObject s _ := (s, TEE_SUCCESS, 1)
  TEE_FreeTransientObject s _ := s
  TEE_PopulateTransientObject s _ key := ({ s with objKey := key }, TEE_SUCCESS)
  TEE_SetOperationKey s _ _ := ({ s with opKey := s.objKey }, TEE_SUCCESS)
  TEE_AEInit s _ nonce := ({ s with nonce }, TEE_SUCCESS)
  TEE_AEEncryptFinal s _ src :=
    let sealed := ae.enc s.opKey s.nonce src
    (s, TEE_SUCCESS, ⟨sealed.1, ae.length_enc _ _ _⟩, sealed.2)
  TEE_AEDecryptFinal s _ src tag :=
    let opened := ae.dec s.opKey s.nonce src tag
    (s, if opened.isSome then TEE_SUCCESS else TEE_ERROR_MAC_INVALID,
      ⟨opened.getD src, ae.length_getD_dec _ _ _ _⟩)

end TeeSqlite
