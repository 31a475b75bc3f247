import Mathlib
import NTD97.Lib.Wire

/-!
# Lib/Width — how many bytes an encoder writes

    width (x ▪ y)  =  width x + width y

An encoder fails only where a length does not fit its field, so a bound on the bytes to come says
that it succeeds.
-/

namespace Wire

variable {ε α : Type}

/-- **The encoder succeeds with `n` bytes.** -/
def Writes (x : Put ε Unit) (n : ℕ) : Prop := ∃ b, Emits x b ∧ b.length = n

/-- Writing nothing. -/
theorem Writes.done : Writes (pure () : Put ε Unit) 0 := ⟨[], emits_pure.2 rfl, rfl⟩

/-- Raw bytes. -/
theorem Writes.raw (b : Bytes) : Writes (tell b : Put ε Unit) b.length := ⟨b, emits_tell.2 rfl, rfl⟩

/-- **Widths add up.** -/
theorem Writes.bind {x : Put ε Unit} {f : Unit → Put ε Unit} {m n : ℕ} (hx : Writes x m)
    (hf : Writes (f ()) n) : Writes (x >>= f) (m + n) := by
  obtain ⟨b, hb, rfl⟩ := hx
  obtain ⟨b', hb', rfl⟩ := hf
  exact ⟨b ++ b', emits_bind.2 ⟨b, hb, b', hb', rfl⟩, List.length_append⟩

/-- A pure step writes nothing. -/
theorem Writes.lift_bind {r : Except ε α} {f : α → Put ε Unit} {a : α} {n : ℕ} (hr : r = .ok a)
    (hf : Writes (f a) n) : Writes (liftM r >>= f) n := by
  obtain ⟨b, hb, hlen⟩ := hf
  exact ⟨b, emits_lift_bind.2 ⟨a, hr, hb⟩, hlen⟩

/-- A number in `n` bytes. -/
theorem Writes.le (n v : ℕ) : Writes (tell (leBytes n v) : Put ε Unit) n :=
  ⟨leBytes n v, emits_tell.2 rfl, length_leBytes n v⟩

/-- A block of a fixed length. -/
theorem Writes.block {n : ℕ} (b : Block n) : Writes (tell b.bytes : Put ε Unit) n :=
  ⟨b.bytes, emits_tell.2 rfl, b.length_eq⟩

/-- The elements of a list, one after the other. -/
theorem Writes.forM {put : α → Put ε Unit} {width : α → ℕ} :
    ∀ {l : List α}, (∀ a ∈ l, Writes (put a) (width a)) → Writes (l.forM put) (l.map width).sum
  | [], _ => Writes.done
  | a :: l, h => by
      rw [List.map_cons, List.sum_cons]
      exact (h a (List.mem_cons_self ..)).bind
        (Writes.forM fun a' ha' => h a' (List.mem_cons_of_mem _ ha'))

variable [WireError ε]

theorem lenU32_ofNat {n : ℕ} (h : n < 2 ^ 32) : lenU32 (ε := ε) n = .ok (UInt32.ofNat n) :=
  if_pos h

/-- A text takes four bytes more than its UTF-8. -/
theorem Writes.text {s : String} (h : (utf8 s).length < 2 ^ 32) :
    Writes (pushString s : Put ε Unit) (4 + (utf8 s).length) :=
  Writes.lift_bind (lenU32_ofNat h) ((Writes.le 4 _).bind (Writes.raw _))

/-- A list takes four bytes more than its elements. -/
theorem Writes.list {put : α → Put ε Unit} {width : α → ℕ} {l : List α} (hl : l.length < 2 ^ 32)
    (h : ∀ a ∈ l, Writes (put a) (width a)) :
    Writes (pushList put l) (4 + (l.map width).sum) :=
  Writes.lift_bind (lenU32_ofNat hl) ((Writes.le 4 _).bind (Writes.forM h))

end Wire
