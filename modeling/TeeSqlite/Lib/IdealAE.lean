import TeeSqlite.Lib.ByteFile

/-!
# Ideal authenticated encryption

A deterministic, length-preserving scheme that opens exactly what was sealed under
the same key and nonce.

* `dec_enc`: what one key sealed opens under another as the same bytes only
  if the other key seals them alike;
* `dec_own`: under one key the tag decides.
-/

namespace AuthEnc
open ByteFile (Bytes)

structure IdealAE (κ ν τ : Type) where
  enc : κ → ν → Bytes → Bytes × τ
  dec : κ → ν → Bytes → τ → Option Bytes
  length_enc : ∀ k n p, (enc k n p).1.length = p.length
  exact : ∀ k n c t p, dec k n c t = some p ↔ enc k n p = (c, t)

namespace IdealAE
variable {κ ν τ : Type} (ae : IdealAE κ ν τ)

theorem length_dec {k : κ} {n : ν} {c p : Bytes} {t : τ} (h : ae.dec k n c t = some p) :
    p.length = c.length := by
  have sealed := (ae.exact k n c t p).mp h
  have length := ae.length_enc k n p
  rw [sealed] at length
  exact length.symm

/-- A buffer decrypted in place keeps its length, whether or not the tag fits. -/
theorem length_getD_dec (k : κ) (n : ν) (c : Bytes) (t : τ) :
    ((ae.dec k n c t).getD c).length = c.length := by
  cases h : ae.dec k n c t with
  | none => rfl
  | some p => exact ae.length_dec h

theorem dec_enc (k k' : κ) (n : ν) (p : Bytes) (t : τ) :
    ae.dec k n (ae.enc k' n p).1 t = some p ↔ ae.enc k n p = ((ae.enc k' n p).1, t) :=
  ae.exact k n _ t p

theorem dec_own (k : κ) (n : ν) (p : Bytes) (t : τ) :
    ae.dec k n (ae.enc k n p).1 t = some p ↔ (ae.enc k n p).2 = t := by
  rw [dec_enc]
  constructor
  · intro h
    rw [h]
  · intro h
    rw [← h]

/-- Under this key, nonce and tag nothing but `c` opens. -/
def Binds (k : κ) (n : ν) (t : τ) (c : Bytes) : Prop := ∀ c' p, ae.dec k n c' t = some p → c' = c

/-- A scheme that only authenticates. -/
def ofTag [DecidableEq τ] (tag : κ → ν → Bytes → τ) : IdealAE κ ν τ where
  enc k n p := (p, tag k n p)
  dec k n c t := if tag k n c = t then some c else none
  length_enc _ _ _ := rfl
  exact k n c t p := by
    constructor
    · intro h
      split_ifs at h with same
      rw [← Option.some.inj h, same]
    · intro h
      obtain ⟨rfl, rfl⟩ := Prod.mk.inj h
      exact if_pos rfl

end IdealAE
end AuthEnc
