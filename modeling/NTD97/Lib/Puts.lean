import Mathlib
import NTD97.Lib.Wire

/-!
# Lib/Puts — what can be written

    every length below 2^32  ──▸  the encoder writes some bytes

An encoder of this format refuses nothing but a length that does not fit its field.  The rules take
an encoder apart and leave the lengths.
-/

namespace Wire

open Guard

variable {ε α : Type} {x : Put ε Unit} {f : Unit → Put ε Unit}

/-- **An encoder that refuses nothing.** -/
def Puts (x : Put ε Unit) : Prop := ∃ b, Emits x b

/-- Such an encoder's bytes. -/
theorem Puts.written (h : Puts x) : ∃ b, Wire.written x = .ok b :=
  h.imp fun _ hb => written_eq_ok.2 hb

/-- One encoder after another. -/
theorem Puts.bind (hx : Puts x) (hf : Puts (f ())) : Puts (x >>= f) := by
  obtain ⟨b, hb⟩ := hx
  obtain ⟨b', hb'⟩ := hf
  exact ⟨b ++ b', emits_bind.2 ⟨b, hb, b', hb', rfl⟩⟩

theorem puts_pure : Puts (pure () : Put ε Unit) := ⟨_, emits_pure.2 rfl⟩

theorem puts_tell (b : Bytes) : Puts (tell b : Put ε Unit) := ⟨b, emits_tell.2 rfl⟩

/-- A pure step in front of an encoder. -/
theorem puts_lift_bind {r : Except ε α} {g : α → Put ε Unit} {a : α} (hr : r = .ok a)
    (hg : Puts (g a)) : Puts (liftM r >>= g) :=
  hg.imp fun _ hb => emits_lift_bind.2 ⟨a, hr, hb⟩

/-- A check in front of an encoder. -/
theorem puts_refuse_bind {c : Prop} [Decidable c] {e : ε} (hc : ¬ c) (hx : Puts x) :
    Puts (refuse c e >>= fun _ => x) := hx.imp fun _ hb => emits_refuse_bind.2 ⟨hc, hb⟩

/-- An encoder for each element. -/
theorem puts_forM {put : α → Put ε Unit} : ∀ {l : List α}, (∀ a ∈ l, Puts (put a)) →
    Puts (l.forM put)
  | [], _ => puts_pure
  | _ :: _, h => .bind (h _ (by simp)) (puts_forM fun a ha => h a (by simp [ha]))

theorem puts_pushU8 (v : UInt8) : Puts (pushU8 v : Put ε Unit) := puts_tell _

theorem puts_pushU16 (v : UInt16) : Puts (pushU16 v : Put ε Unit) := puts_tell _

theorem puts_pushU32 (v : UInt32) : Puts (pushU32 v : Put ε Unit) := puts_tell _

theorem puts_pushU64 (v : UInt64) : Puts (pushU64 v : Put ε Unit) := puts_tell _

theorem puts_pushBool (v : Bool) : Puts (pushBool v : Put ε Unit) := puts_pushU8 _

variable [WireError ε]

/-- A number in eight bytes. -/
theorem puts_pushUsize {n : ℕ} (h : n < 2 ^ 64) : Puts (pushUsize n : Put ε Unit) :=
  puts_lift_bind (lenU64_eq_ok.2 (UInt64.toNat_ofNat_of_lt' h)) (puts_tell _)

/-- A length in front of a block. -/
theorem puts_counted {n : ℕ} (h : n < 2 ^ 32) (hx : Puts x) :
    Puts (do pushU32 (← lenU32 (ε := ε) n); x : Put ε Unit) :=
  puts_lift_bind (lenU32_eq_ok.2 (UInt32.toNat_ofNat_of_lt' h)) (.bind (puts_tell _) hx)

/-- Bytes with their length in front. -/
theorem puts_pushBytes {b : Bytes} (h : b.length < 2 ^ 32) :
    Puts (pushBytes b : Put ε Unit) := puts_counted h (puts_tell b)

/-- A text with its length in front. -/
theorem puts_pushString {s : String} (h : (utf8 s).length < 2 ^ 32) :
    Puts (pushString s : Put ε Unit) := puts_pushBytes h

/-- A list with its length in front. -/
theorem puts_pushList {put : α → Put ε Unit} {l : List α} (hlen : l.length < 2 ^ 32)
    (h : ∀ a ∈ l, Puts (put a)) : Puts (pushList put l) :=
  puts_counted hlen (puts_forM h)

end Wire
