import Mathlib
import NTD97.Lib.Guard

/-!
# Lib/Wire — byte encoders, byte decoders, and when they undo each other

    a ──put──▸ b          b ++ rest ──get──▸ (a, rest)

An encoder appends bytes and may refuse; a decoder eats bytes from the front of its input and may
refuse.  `Inverse P put get` is the pair of laws a format is built to have on the values `P`: what
`put` writes `get` reads back whatever follows, and what `get` accepts is what `put` writes.  The
rules follow the shape of a format — `field` for a record, `variant` for a tagged case, `counted`
for a length-prefixed list — so one application per field proves both laws of a record.
-/

namespace Wire

open Guard

variable {ε α β γ : Type}

abbrev Bytes := List UInt8

/-- An encoder: the bytes it appends, unless it refuses. -/
abbrev Put (ε : Type) := WriterT Bytes (Except ε)

/-- A decoder: a state over the bytes still to read. -/
abbrev Get (ε : Type) := StateT Bytes (Except ε)

/-- The errors every decoder of this shape can report. -/
class WireError (ε : Type) where
  truncated : ε
  overflow : ε
  invalidUtf8 : ε

/-- The encoder accepts and appends exactly `b`. -/
def Emits (x : Put ε Unit) (b : Bytes) : Prop := x.run = .ok ((), b)

/-- The decoder accepts, answers `a` and leaves `rest`. -/
def Reads (g : Get ε α) (bs : Bytes) (a : α) (rest : Bytes) : Prop := g.run bs = .ok (a, rest)

/-! ## Reading off the binds -/

theorem emits_tell {b b' : Bytes} : Emits (tell b : Put ε Unit) b' ↔ b = b' :=
  ⟨fun h => (Prod.mk.inj (Except.ok.inj h)).2, fun h => by subst h; rfl⟩

theorem Emits.unique {x : Put ε Unit} {b b' : Bytes} (h : Emits x b) (h' : Emits x b') : b = b' :=
  (Prod.mk.inj (Except.ok.inj (h.symm.trans h'))).2

theorem emits_pure {b : Bytes} : Emits (pure () : Put ε Unit) b ↔ b = [] :=
  ⟨fun h => (Prod.mk.inj (Except.ok.inj h)).2.symm, fun h => by subst h; rfl⟩

theorem emits_bind {x : Put ε Unit} {f : Unit → Put ε Unit} {b : Bytes} :
    Emits (x >>= f) b ↔ ∃ b₁, Emits x b₁ ∧ ∃ b₂, Emits (f ()) b₂ ∧ b = b₁ ++ b₂ := by
  change (x.run >>= fun p => (fun q => (q.1, p.2 ++ q.2)) <$> (f p.1).run) = _ ↔ _
  unfold Emits
  cases x.run with
  | error e => exact ⟨fun h => (nomatch h), fun ⟨_, h, _⟩ => (nomatch h)⟩
  | ok p =>
    obtain ⟨⟨⟩, b₁⟩ := p
    change (fun q => (q.1, b₁ ++ q.2)) <$> (f ()).run = _ ↔ _
    cases (f ()).run with
    | error e => exact ⟨fun h => (nomatch h), fun ⟨_, _, _, h, _⟩ => (nomatch h)⟩
    | ok q =>
      obtain ⟨⟨⟩, b₂⟩ := q
      constructor
      · intro h
        exact ⟨b₁, rfl, b₂, rfl, (Prod.mk.inj (Except.ok.inj h)).2.symm⟩
      · rintro ⟨b₁', h₁, b₂', h₂, rfl⟩
        cases h₁
        cases h₂
        rfl

theorem emits_lift_bind {r : Except ε α} {f : α → Put ε Unit} {b : Bytes} :
    Emits (liftM r >>= f) b ↔ ∃ a, r = .ok a ∧ Emits (f a) b := by
  cases r with
  | error e => exact ⟨fun h => (nomatch h), fun ⟨_, h, _⟩ => (nomatch h)⟩
  | ok a =>
    have hrun : (liftM (Except.ok a : Except ε α) >>= f : Put ε Unit).run = (f a).run := by
      change (fun q : Unit × Bytes => (q.1, [] ++ q.2)) <$> (f a).run = _
      cases (f a).run <;> rfl
    unfold Emits
    rw [hrun]
    exact ⟨fun h => ⟨a, rfl, h⟩, fun ⟨_, h, hf⟩ => by cases h; exact hf⟩

theorem not_emits_throw {e : ε} {b : Bytes} : ¬ Emits (throw e : Put ε Unit) b :=
  fun h => nomatch h

theorem reads_pure {a a' : α} {bs rest : Bytes} :
    Reads (pure a : Get ε α) bs a' rest ↔ a = a' ∧ bs = rest :=
  ⟨fun h => Prod.mk.inj (Except.ok.inj h), fun ⟨h, h'⟩ => by subst h; subst h'; rfl⟩

theorem reads_bind {g : Get ε α} {f : α → Get ε β} {bs rest : Bytes} {b : β} :
    Reads (g >>= f) bs b rest ↔ ∃ a mid, Reads g bs a mid ∧ Reads (f a) mid b rest := by
  unfold Reads
  rw [StateT.run_bind]
  cases g.run bs with
  | error e => exact ⟨fun h => (nomatch h), fun ⟨_, _, h, _⟩ => (nomatch h)⟩
  | ok p => exact ⟨fun h => ⟨p.1, p.2, rfl, h⟩, fun ⟨_, _, h, hf⟩ => by cases h; exact hf⟩

theorem reads_lift {r : Except ε α} {bs rest : Bytes} {a : α} :
    Reads (liftM r : Get ε α) bs a rest ↔ r = .ok a ∧ bs = rest := by
  cases r with
  | error e => exact ⟨fun h => (nomatch h), fun ⟨h, _⟩ => (nomatch h)⟩
  | ok a' =>
    exact ⟨fun h => ⟨congrArg _ (Prod.mk.inj (Except.ok.inj h)).1,
      (Prod.mk.inj (Except.ok.inj h)).2⟩, fun ⟨h, h'⟩ => by cases h; subst h'; rfl⟩

theorem not_reads_throw {e : ε} {bs rest : Bytes} {a : α} :
    ¬ Reads (throw e : Get ε α) bs a rest := fun h => nomatch h

theorem reads_refuse {c : Prop} [Decidable c] {e : ε} {u : Unit} {bs rest : Bytes} :
    Reads (refuse c e : Get ε Unit) bs u rest ↔ ¬ c ∧ bs = rest := by
  by_cases hc : c
  · rw [refuse, if_pos hc]
    exact ⟨fun h => (by cases h), fun h => absurd hc h.1⟩
  · rw [refuse, if_neg hc, reads_pure]
    exact ⟨fun h => ⟨hc, h.2⟩, fun h => ⟨rfl, h.2⟩⟩

theorem reads_refuse_bind {c : Prop} [Decidable c] {e : ε} {f : Unit → Get ε α} {bs rest : Bytes}
    {a : α} : Reads (refuse c e >>= f) bs a rest ↔ ¬ c ∧ Reads (f ()) bs a rest := by
  by_cases hc : c
  · rw [refuse, if_pos hc]
    exact ⟨fun h => (by cases h), fun h => absurd hc h.1⟩
  · rw [refuse, if_neg hc, pure_bind]
    exact ⟨fun h => ⟨hc, h⟩, fun h => h.2⟩

theorem emits_refuse_bind {c : Prop} [Decidable c] {e : ε} {f : Unit → Put ε Unit} {b : Bytes} :
    Emits (refuse c e >>= f) b ↔ ¬ c ∧ Emits (f ()) b := by
  by_cases hc : c
  · rw [refuse, if_pos hc]
    exact ⟨fun h => (by cases h), fun h => absurd hc h.1⟩
  · rw [refuse, if_neg hc, emits_bind]
    constructor
    · rintro ⟨b₁, h₁, b₂, h₂, rfl⟩
      rw [emits_pure] at h₁
      subst h₁
      exact ⟨hc, h₂⟩
    · rintro ⟨-, h⟩
      exact ⟨[], emits_pure.2 rfl, b, h, rfl⟩

/-! ## The laws of a format -/

/-- **An encoder and a decoder undo each other on the values `P`.** -/
structure Inverse (P : α → Prop) (put : α → Put ε Unit) (get : Get ε α) : Prop where
  get_put : ∀ {a b}, P a → Emits (put a) b → ∀ rest, Reads get (b ++ rest) a rest
  put_get : ∀ {bs a rest}, Reads get bs a rest → P a ∧ ∃ b, Emits (put a) b ∧ bs = b ++ rest

namespace Inverse

variable {P : α → Prop} {Q : β → Prop} {put : α → Put ε Unit} {get : Get ε α}

/-- The end of a record: nothing is left to write, and the value is determined. -/
theorem done {a : α} (h : ∀ x, P x ↔ x = a) : Inverse P (fun _ => (pure () : Put ε Unit)) (pure a)
    where
  get_put hx hb rest := by
    rw [emits_pure] at hb
    exact reads_pure.2 ⟨((h _).1 hx).symm, by rw [hb]; rfl⟩
  put_get hr := by
    obtain ⟨rfl, rfl⟩ := reads_pure.1 hr
    exact ⟨(h _).2 rfl, [], emits_pure.2 rfl, rfl⟩

/-- **One field of a record**: written first, read first, and then known to the rest. -/
theorem field {putf : β → Put ε Unit} {getf : Get ε β} (hf : Inverse Q putf getf) (f : α → β)
    {rest : α → Put ε Unit} {next : β → Get ε α} (hP : ∀ a, P a → Q (f a))
    (hrest : ∀ x, Q x → Inverse (fun a => P a ∧ f a = x) rest (next x)) :
    Inverse P (fun a => do putf (f a); rest a) (getf >>= next) where
  get_put {a b} ha hb tail := by
    obtain ⟨b₁, h₁, b₂, h₂, rfl⟩ := emits_bind.1 hb
    refine reads_bind.2 ⟨f a, b₂ ++ tail, ?_, (hrest _ (hP a ha)).get_put ⟨ha, rfl⟩ h₂ tail⟩
    rw [List.append_assoc]
    exact hf.get_put (hP a ha) h₁ _
  put_get {bs a tail} hr := by
    obtain ⟨x, mid, hx, hnext⟩ := reads_bind.1 hr
    obtain ⟨hQ, b₁, h₁, rfl⟩ := hf.put_get hx
    obtain ⟨⟨ha, rfl⟩, b₂, h₂, rfl⟩ := (hrest x hQ).put_get hnext
    exact ⟨ha, b₁ ++ b₂, emits_bind.2 ⟨b₁, h₁, b₂, h₂, rfl⟩, (List.append_assoc ..).symm⟩

/-- **One field of a record that the decoder checks** before it reads on. -/
theorem checked {putf : β → Put ε Unit} {getf : Get ε β} (hf : Inverse Q putf getf) (f : α → β)
    {c : β → Prop} [DecidablePred c] {e : β → ε} {rest : α → Put ε Unit} {next : β → Get ε α}
    (hP : ∀ a, P a → Q (f a) ∧ ¬ c (f a))
    (hrest : ∀ x, Q x → ¬ c x → Inverse (fun a => P a ∧ f a = x) rest (next x)) :
    Inverse P (fun a => do putf (f a); rest a)
      (getf >>= fun x => refuse (c x) (e x) >>= fun _ => next x) where
  get_put {a b} ha hb tail := by
    obtain ⟨b₁, h₁, b₂, h₂, rfl⟩ := emits_bind.1 hb
    refine reads_bind.2 ⟨f a, b₂ ++ tail, ?_, reads_refuse_bind.2 ⟨(hP a ha).2,
      (hrest _ (hP a ha).1 (hP a ha).2).get_put ⟨ha, rfl⟩ h₂ tail⟩⟩
    rw [List.append_assoc]
    exact hf.get_put (hP a ha).1 h₁ _
  put_get {bs a tail} hr := by
    obtain ⟨x, mid, hx, hnext⟩ := reads_bind.1 hr
    obtain ⟨hc, hnext⟩ := reads_refuse_bind.1 hnext
    obtain ⟨hQ, b₁, h₁, rfl⟩ := hf.put_get hx
    obtain ⟨⟨ha, rfl⟩, b₂, h₂, rfl⟩ := (hrest x hQ hc).put_get hnext
    exact ⟨ha, b₁ ++ b₂, emits_bind.2 ⟨b₁, h₁, b₂, h₂, rfl⟩, (List.append_assoc ..).symm⟩

/-- The last field of a record, when the encoder ends with it. -/
theorem last {putf : β → Put ε Unit} {getf : Get ε β} (hf : Inverse Q putf getf) (f : α → β)
    {mk : β → α} (hP : ∀ a, P a → Q (f a) ∧ mk (f a) = a)
    (hmk : ∀ x, Q x → P (mk x) ∧ f (mk x) = x) :
    Inverse P (fun a => putf (f a)) (getf >>= fun x => pure (mk x)) where
  get_put {a b} ha hb tail := reads_bind.2 ⟨f a, tail, hf.get_put (hP a ha).1 hb tail,
    reads_pure.2 ⟨(hP a ha).2, rfl⟩⟩
  put_get {bs a tail} hr := by
    obtain ⟨x, mid, hx, hr⟩ := reads_bind.1 hr
    obtain ⟨rfl, rfl⟩ := reads_pure.1 hr
    obtain ⟨hQ, b, hb, rfl⟩ := hf.put_get hx
    exact ⟨(hmk x hQ).1, b, by rw [(hmk x hQ).2]; exact hb, rfl⟩

/-- The last field of a record, when the decoder checks it. -/
theorem lastChecked {putf : β → Put ε Unit} {getf : Get ε β} (hf : Inverse Q putf getf) (f : α → β)
    {c : β → Prop} [DecidablePred c] {e : β → ε} {mk : β → α}
    (hP : ∀ a, P a → (Q (f a) ∧ ¬ c (f a)) ∧ mk (f a) = a)
    (hmk : ∀ x, Q x → ¬ c x → P (mk x) ∧ f (mk x) = x) :
    Inverse P (fun a => putf (f a))
      (getf >>= fun x => refuse (c x) (e x) >>= fun _ => pure (mk x)) where
  get_put {a b} ha hb tail := reads_bind.2 ⟨f a, tail, hf.get_put (hP a ha).1.1 hb tail,
    reads_refuse_bind.2 ⟨(hP a ha).1.2, reads_pure.2 ⟨(hP a ha).2, rfl⟩⟩⟩
  put_get {bs a tail} hr := by
    obtain ⟨x, mid, hx, hr⟩ := reads_bind.1 hr
    obtain ⟨hc, hr⟩ := reads_refuse_bind.1 hr
    obtain ⟨rfl, rfl⟩ := reads_pure.1 hr
    obtain ⟨hQ, b, hb, rfl⟩ := hf.put_get hx
    exact ⟨(hmk x hQ hc).1, b, by rw [(hmk x hQ hc).2]; exact hb, rfl⟩

/-- The last field of a record, which completes it if it can. -/
theorem resolve {putf : β → Put ε Unit} {getf : Get ε β} (hf : Inverse Q putf getf) (f : α → β)
    {mk : β → Except ε α} (hP : ∀ a, P a → Q (f a) ∧ mk (f a) = .ok a)
    (hmk : ∀ x a, Q x → mk x = .ok a → P a ∧ f a = x) :
    Inverse P (fun a => putf (f a)) (getf >>= fun x => liftM (mk x)) where
  get_put {a b} ha hb tail := reads_bind.2 ⟨f a, tail, hf.get_put (hP a ha).1 hb tail,
    reads_lift.2 ⟨(hP a ha).2, rfl⟩⟩
  put_get {bs a tail} hr := by
    obtain ⟨x, mid, hx, hr⟩ := reads_bind.1 hr
    obtain ⟨hmake, rfl⟩ := reads_lift.1 hr
    obtain ⟨hQ, b, hb, rfl⟩ := hf.put_get hx
    obtain ⟨ha, rfl⟩ := hmk x a hQ hmake
    exact ⟨ha, b, hb, rfl⟩

/-- What a decoder reads is what the encoder writes. -/
theorem reads_iff (h : Inverse P put get) {bs rest : Bytes} {a : α} :
    Reads get bs a rest ↔ P a ∧ ∃ b, Emits (put a) b ∧ bs = b ++ rest :=
  ⟨h.put_get, fun ⟨ha, _, hb, hbs⟩ => hbs ▸ h.get_put ha hb rest⟩

/-- Two values in front of the same bytes are one value. -/
theorem cancel (h : Inverse P put get) {a a' : α} {b b' rest rest' : Bytes} (ha : P a) (ha' : P a')
    (hb : Emits (put a) b) (hb' : Emits (put a') b') (heq : b ++ rest = b' ++ rest') :
    a = a' ∧ rest = rest' := by
  have hread : Reads get (b' ++ rest') a rest := heq ▸ h.get_put ha hb rest
  exact Prod.mk.inj (Except.ok.inj (hread.symm.trans (h.get_put ha' hb' rest')))

/-- An encoder only matters on the values it is for. -/
theorem congr {put' : α → Put ε Unit} {get' : Get ε α} (h : Inverse P put get)
    (hput : ∀ a, P a → put' a = put a) (hget : get' = get) : Inverse P put' get' where
  get_put ha hb rest := by
    rw [hget]
    exact h.get_put ha (by rw [← hput _ ha]; exact hb) rest
  put_get hr := by
    rw [hget] at hr
    obtain ⟨ha, b, hb, rfl⟩ := h.put_get hr
    exact ⟨ha, b, by rw [hput _ ha]; exact hb, rfl⟩

/-- The same laws over another description of the values. -/
theorem domain {P' : α → Prop} (h : Inverse P put get) (hP : ∀ a, P' a ↔ P a) :
    Inverse P' put get where
  get_put ha := h.get_put ((hP _).1 ha)
  put_get hr := ⟨(hP _).2 (h.put_get hr).1, (h.put_get hr).2⟩

/-- Two values, one after the other. -/
theorem pair {putb : β → Put ε Unit} {getb : Get ε β} (h : Inverse P put get)
    (hb : Inverse Q putb getb) :
    Inverse (fun p : α × β => P p.1 ∧ Q p.2) (fun p => do put p.1; putb p.2)
      (get >>= fun a => getb >>= fun b => pure (a, b)) :=
  h.field Prod.fst (fun _ hp => hp.1) fun _ ha => hb.last Prod.snd
    (fun _ hp => ⟨hp.1.2, Prod.ext hp.2.symm rfl⟩) fun _ hq => ⟨⟨⟨ha, hq⟩, rfl⟩, rfl⟩

/-- **One case of a sum**: the values `c b`, written as their payload `b`. -/
theorem variant {putb : β → Put ε Unit} {getb : Get ε β} (h : Inverse Q putb getb) (c : β → α)
    (hput : ∀ b, put (c b) = putb b) (hget : get = getb >>= fun b => pure (c b))
    (hP : ∀ a, P a ↔ ∃ b, Q b ∧ c b = a) : Inverse P put get where
  get_put {a b} ha hb rest := by
    obtain ⟨x, hx, rfl⟩ := (hP a).1 ha
    rw [hget]
    exact reads_bind.2 ⟨x, rest, h.get_put hx (by rw [← hput]; exact hb) rest,
      reads_pure.2 ⟨rfl, rfl⟩⟩
  put_get {bs a rest} hr := by
    rw [hget] at hr
    obtain ⟨x, mid, hx, hr⟩ := reads_bind.1 hr
    obtain ⟨rfl, rfl⟩ := reads_pure.1 hr
    obtain ⟨hQ, b, hb, rfl⟩ := h.put_get hx
    exact ⟨(hP _).2 ⟨x, hQ, rfl⟩, b, by rw [hput]; exact hb, rfl⟩

end Inverse

/-- An encoder that validates its value first. -/
def checkedPut (check : α → Except ε Unit) (put : α → Put ε Unit) (a : α) : Put ε Unit := do
  liftM (check a)
  put a

/-- A decoder that validates its value at the end. -/
def checkedGet (check : α → Except ε Unit) (get : Get ε α) : Get ε α := do
  let a ← get
  liftM (check a)
  return a

theorem emits_checkedPut {check : α → Except ε Unit} {put : α → Put ε Unit} {a : α} {b : Bytes} :
    Emits (checkedPut check put a) b ↔ check a = .ok () ∧ Emits (put a) b := by
  rw [checkedPut, emits_lift_bind, exists_unit]

theorem reads_checkedGet {check : α → Except ε Unit} {get : Get ε α} {bs rest : Bytes} {a : α} :
    Reads (checkedGet check get) bs a rest ↔ Reads get bs a rest ∧ check a = .ok () := by
  simp only [checkedGet, reads_bind, reads_lift, reads_pure]
  constructor
  · rintro ⟨a, mid, hget, _, mid', ⟨hcheck, rfl⟩, rfl, rfl⟩
    exact ⟨hget, hcheck⟩
  · rintro ⟨hget, hcheck⟩
    exact ⟨a, rest, hget, (), rest, ⟨hcheck, rfl⟩, rfl, rfl⟩

/-- **A value that both sides validate.** -/
theorem Inverse.guarded {P : α → Prop} {put : α → Put ε Unit} {get : Get ε α}
    (h : Inverse P put get) (check : α → Except ε Unit) :
    Inverse P (checkedPut check put) (checkedGet check get) where
  get_put ha hb rest := by
    obtain ⟨hcheck, hb⟩ := emits_checkedPut.1 hb
    exact reads_checkedGet.2 ⟨h.get_put ha hb rest, hcheck⟩
  put_get hr := by
    obtain ⟨hr, hcheck⟩ := reads_checkedGet.1 hr
    obtain ⟨ha, b, hb, rfl⟩ := h.put_get hr
    exact ⟨ha, b, emits_checkedPut.2 ⟨hcheck, hb⟩, rfl⟩

/-! ## Decoders that normalise

A decoder may accept several spellings of one value.  Then it only recovers what was written, and
not every file it accepts is one. -/

/-- **A decoder recovers the values `P` from what the encoder wrote.** -/
structure Recovers (P : α → Prop) (put : α → Put ε Unit) (get : Get ε α) : Prop where
  get_put : ∀ {a b}, P a → Emits (put a) b → ∀ rest, Reads get (b ++ rest) a rest

theorem Inverse.recovers {P : α → Prop} {put : α → Put ε Unit} {get : Get ε α}
    (h : Inverse P put get) : Recovers P put get := ⟨h.get_put⟩

namespace Recovers

variable {P : α → Prop} {Q : β → Prop} {put : α → Put ε Unit} {get : Get ε α}

/-- **One field of a record.** -/
theorem field {putf : β → Put ε Unit} {getf : Get ε β} (hf : Recovers Q putf getf) (f : α → β)
    {rest : α → Put ε Unit} {next : β → Get ε α} (hP : ∀ a, P a → Q (f a))
    (hrest : ∀ x, Recovers (fun a => P a ∧ f a = x) rest (next x)) :
    Recovers P (fun a => do putf (f a); rest a) (getf >>= next) := by
  refine ⟨fun {a b} ha hb tail => ?_⟩
  obtain ⟨b₁, h₁, b₂, h₂, rfl⟩ := emits_bind.1 hb
  refine reads_bind.2 ⟨f a, b₂ ++ tail, ?_, (hrest (f a)).get_put ⟨ha, rfl⟩ h₂ tail⟩
  rw [List.append_assoc]
  exact hf.get_put (hP a ha) h₁ _

/-- A check that the values pass. -/
theorem refused {c : Prop} [Decidable c] {e : ε} (h : Recovers P put get) (hc : ∀ a, P a → ¬ c) :
    Recovers P put (refuse c e >>= fun _ => get) :=
  ⟨fun ha hb rest => reads_refuse_bind.2 ⟨hc _ ha, h.get_put ha hb rest⟩⟩

/-- The last field of a record, which completes it if it can. -/
theorem last {putf : β → Put ε Unit} {getf : Get ε β} (hf : Recovers Q putf getf) (f : α → β)
    {mk : β → Except ε α} (hP : ∀ a, P a → Q (f a) ∧ mk (f a) = .ok a) :
    Recovers P (fun a => putf (f a)) (getf >>= fun x => liftM (mk x)) :=
  ⟨fun ha hb rest => reads_bind.2 ⟨_, rest, hf.get_put (hP _ ha).1 hb rest,
    reads_lift.2 ⟨(hP _ ha).2, rfl⟩⟩⟩

/-- The last field of a record, which always completes it. -/
theorem whole {putf : β → Put ε Unit} {getf : Get ε β} (hf : Recovers Q putf getf) (f : α → β)
    {mk : β → α} (hP : ∀ a, P a → Q (f a) ∧ mk (f a) = a) :
    Recovers P (fun a => putf (f a)) (getf >>= fun x => pure (mk x)) :=
  ⟨fun ha hb rest => reads_bind.2 ⟨_, rest, hf.get_put (hP _ ha).1 hb rest,
    reads_pure.2 ⟨(hP _ ha).2, rfl⟩⟩⟩

end Recovers

/-! ## A whole block -/

/-- The bytes an encoder writes. -/
def written (x : Put ε Unit) : Except ε Bytes := do
  let (_, b) ← x.run
  return b

theorem written_eq_ok {x : Put ε Unit} {b : Bytes} : written x = .ok b ↔ Emits x b := by
  simp only [written, bind_eq_ok, pure_eq_ok, Prod.exists, Emits]
  constructor
  · rintro ⟨⟨⟩, b', h, rfl⟩
    exact h
  · exact fun h => ⟨(), b, h, rfl⟩

/-- Read a block to its end; what is left over is refused with `e`. -/
def readAll (get : Get ε α) (e : ε) (bs : Bytes) : Except ε α := do
  let (a, rest) ← get.run bs
  refuse (rest ≠ []) e
  return a

theorem readAll_eq_ok {get : Get ε α} {e : ε} {bs : Bytes} {a : α} :
    readAll get e bs = .ok a ↔ Reads get bs a [] := by
  simp only [readAll, bind_eq_ok, exists_unit, refuse_eq_ok, pure_eq_ok, Prod.exists, not_not,
    Reads]
  constructor
  · rintro ⟨a', rest, h, rfl, rfl⟩
    exact h
  · exact fun h => ⟨a, [], h, rfl, rfl⟩

/-- **Reading a whole block inverts writing it**, on the values the format is for. -/
theorem Inverse.readAll_eq_ok {P : α → Prop} {put : α → Put ε Unit} {get : Get ε α}
    (h : Inverse P put get) {e : ε} {bs : Bytes} {a : α} :
    readAll get e bs = .ok a ↔ P a ∧ written (put a) = .ok bs := by
  rw [Wire.readAll_eq_ok, written_eq_ok]
  constructor
  · intro hr
    obtain ⟨ha, b, hb, rfl⟩ := h.put_get hr
    exact ⟨ha, by rwa [List.append_nil]⟩
  · rintro ⟨ha, hb⟩
    have hr := h.get_put ha hb []
    rwa [List.append_nil] at hr

/-! ## Taking bytes off the front -/

section Take

variable [WireError ε]

/-- The next `n` bytes. -/
def take (n : ℕ) : Get ε Bytes := fun bs =>
  if n ≤ bs.length then .ok (bs.take n, bs.drop n) else .error WireError.truncated

theorem reads_take {n : ℕ} {bs b rest : Bytes} :
    Reads (take n : Get ε Bytes) bs b rest ↔ b.length = n ∧ bs = b ++ rest := by
  unfold Reads take
  change (if n ≤ bs.length then Except.ok (bs.take n, bs.drop n) else _) = _ ↔ _
  split
  · next hn =>
    constructor
    · intro h
      obtain ⟨rfl, rfl⟩ := Prod.mk.inj (Except.ok.inj h)
      exact ⟨List.length_take_of_le hn, (List.take_append_drop n bs).symm⟩
    · rintro ⟨rfl, rfl⟩
      rw [List.take_left, List.drop_left]
  · next hn =>
    refine ⟨fun h => (nomatch h), fun ⟨hlen, h⟩ => absurd ?_ hn⟩
    rw [h, ← hlen, List.length_append]
    exact Nat.le_add_right _ _

/-- A block of a fixed length, verbatim. -/
theorem inverse_take (n : ℕ) :
    Inverse (fun b : Bytes => b.length = n) (fun b => (tell b : Put ε Unit)) (take n) where
  get_put hlen hb rest := by
    rw [emits_tell] at hb
    subst hb
    exact reads_take.2 ⟨hlen, rfl⟩
  put_get hr := by
    obtain ⟨hlen, rfl⟩ := reads_take.1 hr
    exact ⟨hlen, _, emits_tell.2 rfl, rfl⟩

end Take

/-! ## Little-endian integers -/

/-- The `n` low base-256 digits of `v`, least significant first. -/
def leBytes : ℕ → ℕ → Bytes
  | 0, _ => []
  | n + 1, v => UInt8.ofNat v :: leBytes n (v / 256)

/-- The number a little-endian block denotes. -/
def ofLe : Bytes → ℕ
  | [] => 0
  | b :: bs => b.toNat + 256 * ofLe bs

@[simp] theorem length_leBytes : ∀ n v : ℕ, (leBytes n v).length = n
  | 0, _ => rfl
  | n + 1, v => congrArg (· + 1) (length_leBytes n (v / 256))

theorem ofLe_leBytes : ∀ {n v : ℕ}, v < 256 ^ n → ofLe (leBytes n v) = v
  | 0, v, h => by simpa [ofLe, leBytes, eq_comm] using h
  | n + 1, v, h => by
      have hdiv : v / 256 < 256 ^ n := Nat.div_lt_of_lt_mul (by rwa [pow_succ, mul_comm] at h)
      have hlow : (UInt8.ofNat v).toNat = v % 256 := UInt8.toNat_ofNat'
      rw [leBytes, ofLe, ofLe_leBytes hdiv, hlow]
      omega

theorem leBytes_inj {n v w : ℕ} (hv : v < 256 ^ n) (hw : w < 256 ^ n)
    (h : leBytes n v = leBytes n w) : v = w := by
  rw [← ofLe_leBytes hv, h, ofLe_leBytes hw]

theorem ofLe_lt : ∀ bs : Bytes, ofLe bs < 256 ^ bs.length
  | [] => by simp [ofLe]
  | b :: bs => by
      have hrest := ofLe_lt bs
      have hb := b.toNat_lt
      rw [ofLe, List.length_cons, pow_succ]
      omega

theorem leBytes_ofLe : ∀ bs : Bytes, leBytes bs.length (ofLe bs) = bs
  | [] => rfl
  | b :: bs => by
      have hb := b.toNat_lt
      have hdiv : (b.toNat + 256 * ofLe bs) / 256 = ofLe bs := by omega
      have hlow : UInt8.ofNat (b.toNat + 256 * ofLe bs) = b := by
        rw [← UInt8.toNat_inj, UInt8.toNat_ofNat']
        omega
      rw [List.length_cons, leBytes, ofLe, hlow, hdiv, leBytes_ofLe bs]

/-- The 16 bits at a fixed place of a header. -/
def u16At (b : Bytes) (i : ℕ) : UInt16 := UInt16.ofNat (ofLe ((b.drop i).take 2))

theorem u16At_append {a b : Bytes} {i : ℕ} (ha : a.length = i) (v : UInt16) :
    u16At (a ++ (leBytes 2 v.toNat ++ b)) i = v := by
  rw [u16At, List.drop_left' ha, List.take_left' (length_leBytes ..), ofLe_leBytes v.toNat_lt,
    UInt16.ofNat_toNat]

/-- The version at a fixed place of a header: its major and its minor number. -/
def versionAt (b : Bytes) (i : ℕ) : UInt16 × UInt16 := (u16At b i, u16At b (i + 2))

theorem versionAt_append {a b : Bytes} {i : ℕ} (ha : a.length = i) (major minor : UInt16) :
    versionAt (a ++ (leBytes 2 major.toNat ++ (leBytes 2 minor.toNat ++ b))) i =
      (major, minor) := by
  have hnext : (a ++ leBytes 2 major.toNat).length = i + 2 := by
    rw [List.length_append, length_leBytes, ha]
  have hminor := u16At_append (b := b) hnext minor
  rw [List.append_assoc] at hminor
  rw [versionAt, u16At_append ha, hminor]

section Ints

variable [WireError ε]

/-- A type of values that are exactly the numbers below `256 ^ n`, written little-endian. -/
theorem inverse_le {n : ℕ} {toNat : α → ℕ} {ofNat : ℕ → α} (hlt : ∀ a, toNat a < 256 ^ n)
    (hof : ∀ a, ofNat (toNat a) = a) (hto : ∀ v, v < 256 ^ n → toNat (ofNat v) = v) :
    Inverse (fun _ => True) (fun a => (tell (leBytes n (toNat a)) : Put ε Unit))
      (take n >>= fun b => pure (ofNat (ofLe b))) where
  get_put {a b} _ hb rest := by
    rw [emits_tell] at hb
    subst hb
    exact reads_bind.2 ⟨_, rest, reads_take.2 ⟨length_leBytes .., rfl⟩,
      reads_pure.2 ⟨by rw [ofLe_leBytes (hlt a), hof], rfl⟩⟩
  put_get {bs a rest} hr := by
    obtain ⟨b, mid, hb, hr⟩ := reads_bind.1 hr
    obtain ⟨rfl, rfl⟩ := reads_pure.1 hr
    obtain ⟨rfl, rfl⟩ := reads_take.1 hb
    exact ⟨trivial, b, emits_tell.2 (by rw [hto _ (ofLe_lt b), leBytes_ofLe]), rfl⟩

def pushU8 (v : UInt8) : Put ε Unit := tell (leBytes 1 v.toNat)
def pushU16 (v : UInt16) : Put ε Unit := tell (leBytes 2 v.toNat)
def pushU32 (v : UInt32) : Put ε Unit := tell (leBytes 4 v.toNat)
def pushU64 (v : UInt64) : Put ε Unit := tell (leBytes 8 v.toNat)

def u8 : Get ε UInt8 := do return UInt8.ofNat (ofLe (← take 1))
def u16 : Get ε UInt16 := do return UInt16.ofNat (ofLe (← take 2))
def u32 : Get ε UInt32 := do return UInt32.ofNat (ofLe (← take 4))
def u64 : Get ε UInt64 := do return UInt64.ofNat (ofLe (← take 8))

theorem inverse_u8 : Inverse (fun _ => True) (pushU8 (ε := ε)) u8 :=
  inverse_le UInt8.toNat_lt (fun _ => UInt8.ofNat_toNat) fun _ h => UInt8.toNat_ofNat_of_lt' h

theorem inverse_u16 : Inverse (fun _ => True) (pushU16 (ε := ε)) u16 :=
  inverse_le UInt16.toNat_lt (fun _ => UInt16.ofNat_toNat) fun _ h => UInt16.toNat_ofNat_of_lt' h

theorem inverse_u32 : Inverse (fun _ => True) (pushU32 (ε := ε)) u32 :=
  inverse_le UInt32.toNat_lt (fun _ => UInt32.ofNat_toNat) fun _ h => UInt32.toNat_ofNat_of_lt' h

theorem inverse_u64 : Inverse (fun _ => True) (pushU64 (ε := ε)) u64 :=
  inverse_le UInt64.toNat_lt (fun _ => UInt64.ofNat_toNat) fun _ h => UInt64.toNat_ofNat_of_lt' h

omit [WireError ε] in
/-- A number is narrowed exactly if it fits. -/
theorem narrow_eq_ok {ω : Type} {toNat : ω → ℕ} {ofNat : ℕ → ω} {bound : ℕ} {e : ε}
    (hofNat : ∀ n, n < bound → toNat (ofNat n) = n) (htoNat : ∀ v, ofNat (toNat v) = v)
    (hlt : ∀ v, toNat v < bound) {n : ℕ} {v : ω} :
    (if n < bound then .ok (ofNat n) else .error e : Except ε ω) = .ok v ↔ toNat v = n := by
  split
  · next h =>
    constructor
    · intro hv
      rw [← Except.ok.inj hv, hofNat n h]
    · rintro rfl
      rw [htoNat]
  · next h => exact ⟨fun hv => (nomatch hv), fun hv => absurd (hv ▸ hlt v) h⟩

omit [WireError ε] in
/-- One that does not fit is refused for that. -/
theorem narrow_error {ω : Type} {a : ω} {c : Prop} [Decidable c] {e e' : ε}
    (h : (if c then .ok a else .error e' : Except ε ω) = .error e) : e = e' := by
  split at h
  · exact nomatch h
  · exact (Except.error.inj h).symm

/-- A length, as a 32-bit count. -/
def lenU32 (n : ℕ) : Except ε UInt32 :=
  if n < 2 ^ 32 then .ok (UInt32.ofNat n) else .error WireError.overflow

theorem lenU32_eq_ok {n : ℕ} {v : UInt32} : lenU32 (ε := ε) n = .ok v ↔ v.toNat = n :=
  narrow_eq_ok (fun _ h => UInt32.toNat_ofNat_of_lt' h) (fun _ => UInt32.ofNat_toNat)
    UInt32.toNat_lt

theorem lenU32_error {n : ℕ} {e : ε} (h : lenU32 n = .error e) : e = WireError.overflow :=
  narrow_error h

/-- A machine-sized number, as 64 bits. -/
def lenU64 (n : ℕ) : Except ε UInt64 :=
  if n < 2 ^ 64 then .ok (UInt64.ofNat n) else .error WireError.overflow

theorem lenU64_eq_ok {n : ℕ} {v : UInt64} : lenU64 (ε := ε) n = .ok v ↔ v.toNat = n :=
  narrow_eq_ok (fun _ h => UInt64.toNat_ofNat_of_lt' h) (fun _ => UInt64.ofNat_toNat)
    UInt64.toNat_lt

theorem lenU64_error {n : ℕ} {e : ε} (h : lenU64 n = .error e) : e = WireError.overflow :=
  narrow_error h

/-- The rank of a shape, or another length below 256. -/
def lenU8 (n : ℕ) : Except ε UInt8 :=
  if n < 2 ^ 8 then .ok (UInt8.ofNat n) else .error WireError.overflow

theorem lenU8_eq_ok {n : ℕ} {v : UInt8} : lenU8 (ε := ε) n = .ok v ↔ v.toNat = n :=
  narrow_eq_ok (fun _ h => UInt8.toNat_ofNat_of_lt' h) (fun _ => UInt8.ofNat_toNat)
    UInt8.toNat_lt

omit [WireError ε] in
/-- A number that is written in the width it fits. -/
theorem inverse_sized {put : β → Put ε Unit} {get : Get ε β} {toNat : β → ℕ}
    {ofNat : ℕ → Except ε β} (h : Inverse (fun _ => True) put get)
    (hof : ∀ n v, ofNat n = .ok v ↔ toNat v = n) :
    Inverse (fun _ => True) (fun n => (do put (← ofNat n) : Put ε Unit))
      (get >>= fun v => pure (toNat v)) where
  get_put {n b} _ hb rest := by
    obtain ⟨v, hv, hb⟩ := emits_lift_bind.1 hb
    exact reads_bind.2 ⟨v, rest, h.get_put trivial hb rest, reads_pure.2 ⟨(hof n v).1 hv, rfl⟩⟩
  put_get {bs n rest} hr := by
    obtain ⟨v, mid, hv, hr⟩ := reads_bind.1 hr
    obtain ⟨rfl, rfl⟩ := reads_pure.1 hr
    obtain ⟨-, b, hb, rfl⟩ := h.put_get hv
    exact ⟨trivial, b, emits_lift_bind.2 ⟨v, (hof _ v).2 rfl, hb⟩, rfl⟩

def pushUsize (n : ℕ) : Put ε Unit := do
  pushU64 (← lenU64 (ε := ε) n)

def usize : Get ε ℕ := do return (← u64).toNat

theorem inverse_usize : Inverse (fun _ => True) (pushUsize (ε := ε)) usize :=
  inverse_sized inverse_u64 fun _ _ => lenU64_eq_ok

/-- A length below 256, as one byte. -/
def pushRank (n : ℕ) : Put ε Unit := do
  pushU8 (← lenU8 (ε := ε) n)

def rank : Get ε ℕ := do return (← u8).toNat

theorem inverse_rank : Inverse (fun _ => True) (pushRank (ε := ε)) rank :=
  inverse_sized inverse_u8 fun _ _ => lenU8_eq_ok

def pushI32 (v : Int32) : Put ε Unit := pushU32 v.toUInt32

def i32 : Get ε Int32 := do return (← u32).toInt32

theorem inverse_i32 : Inverse (fun _ => True) (pushI32 (ε := ε)) i32 :=
  inverse_u32.last Int32.toUInt32 (fun _ _ => ⟨trivial, rfl⟩) fun _ _ => ⟨trivial, rfl⟩

/-- **An enumeration**, written as the byte that names each of its values. -/
theorem inverse_coded {code : α → UInt8} {decode : UInt8 → Except ε α}
    (h : ∀ n a, decode n = .ok a ↔ code a = n) :
    Inverse (fun _ => True) (fun a => pushU8 (code a))
      (u8 >>= fun n => liftM (decode n) : Get ε α) where
  get_put {a b} _ hb rest := reads_bind.2 ⟨code a, rest, inverse_u8.get_put trivial hb rest,
    reads_lift.2 ⟨(h _ _).2 rfl, rfl⟩⟩
  put_get {bs a rest} hr := by
    obtain ⟨n, mid, hn, hr⟩ := reads_bind.1 hr
    obtain ⟨hcode, rfl⟩ := reads_lift.1 hr
    obtain ⟨-, b, hb, rfl⟩ := inverse_u8.put_get hn
    exact ⟨trivial, b, by rw [(h _ _).1 hcode]; exact hb, rfl⟩

end Ints

/-! ## Blocks, lists and options -/

/-- Read `n` values in a row. -/
def getN (get : Get ε α) : ℕ → Get ε (List α)
  | 0 => pure []
  | n + 1 => do
    let a ← get
    let l ← getN get n
    return a :: l

/-- The values of a list, one after the other. -/
theorem inverse_getN {P : α → Prop} {put : α → Put ε Unit} {get : Get ε α}
    (h : Inverse P put get) : ∀ n, Inverse (fun l : List α => (∀ a ∈ l, P a) ∧ l.length = n)
      (fun l => l.forM put) (getN get n)
  | 0 => (Inverse.done (a := []) fun l => by simp +contextual [List.length_eq_zero_iff]).congr
      (fun l hl => by rw [List.length_eq_zero_iff.1 hl.2]; rfl) rfl
  | n + 1 => (h.pair (inverse_getN h n)).variant (fun p => p.1 :: p.2) (fun _ => rfl)
      (by simp only [getN, bind_assoc, pure_bind])
      fun l => by
        cases l with
        | nil => simp
        | cons a l => simp [and_assoc]

/-- A list that is read value by value, each of which is then settled, can be read first. -/
theorem reads_getN_map {get : Get ε α} {f : α → Except ε β} : ∀ {n : ℕ} {bs rest : Bytes}
    {l : List β}, Reads (getN (get >>= fun r => liftM (f r)) n) bs l rest →
      ∃ rs, Reads (getN get n) bs rs rest ∧ List.Forall₂ (fun r a => f r = .ok a) rs l
  | 0, _, _, _, h => by
      obtain ⟨rfl, rfl⟩ := reads_pure.1 h
      exact ⟨[], reads_pure.2 ⟨rfl, rfl⟩, .nil⟩
  | n + 1, bs, rest, l, h => by
      obtain ⟨a, mid, ha, hrest⟩ := reads_bind.1 h
      obtain ⟨r, mid', hr, hlift⟩ := reads_bind.1 ha
      obtain ⟨hsettle, rfl⟩ := reads_lift.1 hlift
      obtain ⟨as, mid, has, hpure⟩ := reads_bind.1 hrest
      obtain ⟨rfl, rfl⟩ := reads_pure.1 hpure
      obtain ⟨rs, hrs, hall⟩ := reads_getN_map has
      refine ⟨r :: rs, reads_bind.2 ⟨r, _, hr, reads_bind.2 ⟨rs, _, hrs, ?_⟩⟩, .cons hsettle hall⟩
      exact reads_pure.2 ⟨rfl, rfl⟩

section Blocks

variable [WireError ε]

/-- A byte string behind its 32-bit length. -/
def pushBytes (b : Bytes) : Put ε Unit := do
  pushU32 (← lenU32 (ε := ε) b.length)
  tell b

def bytes : Get ε Bytes := do
  let len ← u32
  take len.toNat

/-- A count in front of a block whose length it is. -/
theorem inverse_counted (len : α → ℕ) {put : α → Put ε Unit} {get : ℕ → Get ε α} {P : α → Prop}
    (h : ∀ n, Inverse (fun a => P a ∧ len a = n) put (get n)) :
    Inverse P (fun a => (do pushU32 (← lenU32 (ε := ε) (len a)); put a : Put ε Unit))
      (u32 >>= fun n => get n.toNat) where
  get_put {a b} ha hb rest := by
    obtain ⟨n, hn, hb⟩ := emits_lift_bind.1 hb
    obtain ⟨b₁, h₁, b₂, h₂, rfl⟩ := emits_bind.1 hb
    rw [List.append_assoc]
    exact reads_bind.2 ⟨n, b₂ ++ rest, inverse_u32.get_put trivial h₁ _,
      (h _).get_put ⟨ha, (lenU32_eq_ok.1 hn).symm⟩ h₂ rest⟩
  put_get {bs a rest} hr := by
    obtain ⟨n, mid, hn, hget⟩ := reads_bind.1 hr
    obtain ⟨-, b₁, h₁, rfl⟩ := inverse_u32.put_get hn
    obtain ⟨⟨ha, hlen⟩, b₂, h₂, rfl⟩ := (h _).put_get hget
    exact ⟨ha, b₁ ++ b₂, emits_lift_bind.2 ⟨n, lenU32_eq_ok.2 hlen.symm,
      emits_bind.2 ⟨b₁, h₁, b₂, h₂, rfl⟩⟩, (List.append_assoc ..).symm⟩

/-- A count that the decoder checks before it reads the block. -/
theorem inverse_countChecked (len : α → ℕ) {put : α → Put ε Unit} {get : ℕ → Get ε α}
    {P : α → Prop} {c : ℕ → Prop} [DecidablePred c] {e : ε}
    (h : ∀ n, Inverse (fun a => P a ∧ len a = n) put (get n)) :
    Inverse (fun a => P a ∧ ¬ c (len a))
      (fun a => (do pushU32 (← lenU32 (ε := ε) (len a)); put a : Put ε Unit))
      (u32 >>= fun n => refuse (c n.toNat) e >>= fun _ => get n.toNat) where
  get_put {a b} ha hb rest := by
    obtain ⟨n, hn, hb⟩ := emits_lift_bind.1 hb
    obtain ⟨b₁, h₁, b₂, h₂, rfl⟩ := emits_bind.1 hb
    have hlen : n.toNat = len a := lenU32_eq_ok.1 hn
    rw [List.append_assoc]
    exact reads_bind.2 ⟨n, b₂ ++ rest, inverse_u32.get_put trivial h₁ _, reads_refuse_bind.2
      ⟨hlen ▸ ha.2, (h _).get_put ⟨ha.1, hlen.symm⟩ h₂ rest⟩⟩
  put_get {bs a rest} hr := by
    obtain ⟨n, mid, hn, hget⟩ := reads_bind.1 hr
    obtain ⟨hc, hget⟩ := reads_refuse_bind.1 hget
    obtain ⟨-, b₁, h₁, rfl⟩ := inverse_u32.put_get hn
    obtain ⟨⟨ha, hlen⟩, b₂, h₂, rfl⟩ := (h _).put_get hget
    exact ⟨⟨ha, hlen ▸ hc⟩, b₁ ++ b₂, emits_lift_bind.2 ⟨n, lenU32_eq_ok.2 hlen.symm,
      emits_bind.2 ⟨b₁, h₁, b₂, h₂, rfl⟩⟩, (List.append_assoc ..).symm⟩

omit [WireError ε] in
/-- A check of the encoder that says where the decoder is at home. -/
theorem Inverse.refused {put : α → Put ε Unit} {get : Get ε α} {P : α → Prop} {c : α → Prop}
    [DecidablePred c] {e : ε} (h : Inverse (fun a => P a ∧ ¬ c a) put get) :
    Inverse P (fun a => do refuse (c a) e; put a) get where
  get_put ha hb rest := by
    obtain ⟨hc, hb⟩ := emits_refuse_bind.1 hb
    exact h.get_put ⟨ha, hc⟩ hb rest
  put_get hr := by
    obtain ⟨⟨ha, hc⟩, b, hb, heq⟩ := h.put_get hr
    exact ⟨ha, b, emits_refuse_bind.2 ⟨hc, hb⟩, heq⟩

theorem inverse_bytes : Inverse (fun _ => True) (pushBytes (ε := ε)) bytes :=
  inverse_counted List.length (P := fun _ => True) fun n =>
    (inverse_take n).domain fun _ => by simp

/-- The UTF-8 bytes of a text. -/
def utf8 (s : String) : Bytes := s.toByteArray.data.toList

/-- The text a block of bytes encodes, if it is valid UTF-8. -/
def ofUtf8 (b : Bytes) : Option String := String.fromUTF8? ⟨b.toArray⟩

theorem ofUtf8_eq_some {b : Bytes} {s : String} : ofUtf8 b = some s ↔ utf8 s = b := by
  unfold ofUtf8 utf8 String.fromUTF8?
  constructor
  · intro h
    split at h
    · cases h
      rfl
    · cases h
  · rintro rfl
    rw [dif_pos s.isValidUTF8]
    rfl

theorem utf8_append (s t : String) : utf8 (s ++ t) = utf8 s ++ utf8 t := by
  rw [utf8, String.toByteArray_append, ByteArray.data_append, Array.toList_append]
  rfl

theorem utf8_ofList_cons (character : Char) (characters : List Char) :
    utf8 (String.ofList (character :: characters)) =
      utf8 character.toString ++ utf8 (String.ofList characters) := by
  rw [← utf8_append]
  congr 1
  rw [Char.toString, String.singleton_eq_ofList, ← String.ofList_append]
  rfl

/-- A text is written character by character. -/
theorem utf8_ofList : ∀ characters : List Char,
    utf8 (String.ofList characters) = characters.flatMap fun character => utf8 character.toString
  | [] => rfl
  | character :: characters => by rw [utf8_ofList_cons, utf8_ofList characters, List.flatMap_cons]

theorem ofUtf8_utf8 (s : String) : ofUtf8 (utf8 s) = some s := ofUtf8_eq_some.2 rfl

/-- The text of a block. -/
def text (b : Bytes) : Get ε String :=
  match ofUtf8 b with
  | some s => pure s
  | none => throw WireError.invalidUtf8

/-- A text is written as a block is, and read as one. -/
theorem inverse_utf8 {putb : Bytes → Put ε Unit} {getb : Get ε Bytes}
    (h : Inverse (fun _ => True) putb getb) :
    Inverse (fun _ => True) (fun s => putb (utf8 s)) (getb >>= text) where
  get_put {s b} _ hb rest := by
    refine reads_bind.2 ⟨utf8 s, rest, h.get_put trivial hb rest, ?_⟩
    rw [text, ofUtf8_eq_some.2 rfl]
    exact reads_pure.2 ⟨rfl, rfl⟩
  put_get {bs s rest} hr := by
    obtain ⟨b, mid, hb, htext⟩ := reads_bind.1 hr
    obtain ⟨-, b', hb', rfl⟩ := h.put_get hb
    unfold text at htext
    cases hs : ofUtf8 b with
    | none => rw [hs] at htext; exact absurd htext not_reads_throw
    | some t =>
      rw [hs] at htext
      obtain ⟨rfl, rfl⟩ := reads_pure.1 htext
      exact ⟨trivial, b', by rw [ofUtf8_eq_some.1 hs]; exact hb', rfl⟩

/-- A text, as its bytes behind their length. -/
def pushString (s : String) : Put ε Unit := pushBytes (utf8 s)

def string : Get ε String := do
  let b ← bytes
  text b

theorem inverse_string : Inverse (fun _ => True) (pushString (ε := ε)) string :=
  inverse_utf8 inverse_bytes

/-- A byte string of at most `cap` bytes. -/
def pushCappedBytes (cap : ℕ) (e : ε) (b : Bytes) : Put ε Unit := do
  refuse (cap < b.length) e
  pushBytes b

def cappedBytes (cap : ℕ) (e : ε) : Get ε Bytes := do
  let len ← u32
  refuse (cap < len.toNat) e
  take len.toNat

theorem inverse_cappedBytes (cap : ℕ) (e e' : ε) :
    Inverse (fun _ => True) (pushCappedBytes cap e) (cappedBytes cap e') :=
  (inverse_countChecked List.length (P := fun _ => True) fun n =>
    (inverse_take n).domain fun _ => by simp).refused

/-- A list behind its 32-bit count. -/
def pushList (put : α → Put ε Unit) (l : List α) : Put ε Unit := do
  pushU32 (← lenU32 (ε := ε) l.length)
  l.forM put

def getList (get : Get ε α) : Get ε (List α) := do
  let count ← u32
  getN get count.toNat

theorem pushList_map {put : β → Put ε Unit} {f : α → β} (l : List α) :
    pushList put (l.map f) = pushList (fun a => put (f a)) l := by
  have hforM : ∀ l : List α, (l.map f).forM put = l.forM fun a => put (f a) := by
    intro l
    induction l with
    | nil => rfl
    | cons a l ih => rw [List.map_cons, List.forM, List.forM, ih]
  rw [pushList, pushList, List.length_map, hforM]

theorem inverse_list {P : α → Prop} {put : α → Put ε Unit} {get : Get ε α}
    (h : Inverse P put get) :
    Inverse (fun l : List α => ∀ a ∈ l, P a) (pushList put) (getList get) :=
  inverse_counted List.length (inverse_getN h)

theorem Recovers.list {P : α → Prop} {put : α → Put ε Unit} {get : Get ε α}
    (h : Recovers P put get) :
    Recovers (fun l : List α => ∀ a ∈ l, P a) (pushList put) (getList get) := by
  have hN : ∀ {l : List α} {b : Bytes}, (∀ a ∈ l, P a) → Emits (l.forM put) b →
      ∀ rest, Reads (getN get l.length) (b ++ rest) l rest := by
    intro l
    induction l with
    | nil =>
      intro b _ hb rest
      rw [emits_pure.1 hb]
      exact reads_pure.2 ⟨rfl, rfl⟩
    | cons a l ih =>
      intro b hl hb rest
      obtain ⟨b₁, h₁, b₂, h₂, rfl⟩ := emits_bind.1 hb
      refine reads_bind.2 ⟨a, b₂ ++ rest, ?_, reads_bind.2 ⟨l, rest, ?_, reads_pure.2 ⟨rfl, rfl⟩⟩⟩
      · rw [List.append_assoc]
        exact h.get_put (hl a (by simp)) h₁ _
      · exact ih (fun x hx => hl x (by simp [hx])) h₂ rest
  refine ⟨fun {l b} hl hb rest => ?_⟩
  obtain ⟨count, hcount, hb⟩ := emits_lift_bind.1 hb
  obtain ⟨b₁, h₁, b₂, h₂, rfl⟩ := emits_bind.1 hb
  refine reads_bind.2 ⟨count, b₂ ++ rest, ?_, ?_⟩
  · rw [List.append_assoc]
    exact inverse_u32.get_put trivial h₁ _
  · rw [lenU32_eq_ok.1 hcount]
    exact hN hl h₂ rest

/-- A list of at most `cap` values. -/
def pushCappedList (cap : ℕ) (e : ε) (put : α → Put ε Unit) (l : List α) : Put ε Unit := do
  refuse (cap < l.length) e
  pushList put l

def cappedList (cap : ℕ) (e : ε) (get : Get ε α) : Get ε (List α) := do
  let count ← u32
  refuse (cap < count.toNat) e
  getN get count.toNat

/-- A list of at most `cap` values, when only the decoder asks. -/
theorem inverse_cappedList {put : α → Put ε Unit} {get : Get ε α} (cap : ℕ) (e : ε)
    (h : Inverse (fun _ => True) put get) :
    Inverse (fun l : List α => True ∧ ¬ cap < l.length) (pushList put) (cappedList cap e get) :=
  inverse_countChecked List.length (P := fun _ => True) fun n =>
    (inverse_getN h n).domain fun _ => by simp

/-- An optional value: the flag `0`, or the flag `1` and the value. -/
def pushOption (put : α → Put ε Unit) : Option α → Put ε Unit
  | none => pushU8 0
  | some a => do
    pushU8 1
    put a

def getOption (invalid : UInt8 → ε) (get : Get ε α) : Get ε (Option α) := do
  let flag ← u8
  if flag = 0 then pure none
  else if flag = 1 then do
    let a ← get
    return some a
  else throw (invalid flag)

theorem inverse_option {P : α → Prop} {put : α → Put ε Unit} {get : Get ε α}
    (invalid : UInt8 → ε) (h : Inverse P put get) :
    Inverse (fun o : Option α => ∀ a ∈ o, P a) (pushOption put) (getOption invalid get) where
  get_put {o b} ho hb rest := by
    cases o with
    | none =>
      exact reads_bind.2 ⟨0, rest, inverse_u8.get_put trivial hb rest, reads_pure.2 ⟨rfl, rfl⟩⟩
    | some a =>
      obtain ⟨b₁, h₁, b₂, h₂, rfl⟩ := emits_bind.1 hb
      rw [List.append_assoc]
      exact reads_bind.2 ⟨1, b₂ ++ rest, inverse_u8.get_put trivial h₁ _,
        reads_bind.2 ⟨a, rest, h.get_put (ho a rfl) h₂ rest, reads_pure.2 ⟨rfl, rfl⟩⟩⟩
  put_get {bs o rest} hr := by
    obtain ⟨flag, mid, hflag, hnext⟩ := reads_bind.1 hr
    obtain ⟨-, b₁, h₁, rfl⟩ := inverse_u8.put_get hflag
    split at hnext
    · next h0 =>
      obtain ⟨rfl, rfl⟩ := reads_pure.1 hnext
      subst h0
      exact ⟨fun _ h => (nomatch h), b₁, h₁, rfl⟩
    · split at hnext
      · next h1 =>
        obtain ⟨a, mid', ha, hret⟩ := reads_bind.1 hnext
        obtain ⟨rfl, rfl⟩ := reads_pure.1 hret
        obtain ⟨hP, b₂, h₂, rfl⟩ := h.put_get ha
        refine ⟨fun a' h' => Option.some.inj h' ▸ hP, b₁ ++ b₂, ?_, (List.append_assoc ..).symm⟩
        exact emits_bind.2 ⟨b₁, h1 ▸ h₁, b₂, h₂, rfl⟩
      · exact absurd hnext not_reads_throw

/-- A boolean: the byte `0` or the byte `1`. -/
def pushBool (v : Bool) : Put ε Unit := pushU8 (if v then 1 else 0)

def boolean (invalid : UInt8 → ε) : Get ε Bool := do
  let flag ← u8
  if flag = 0 then pure false
  else if flag = 1 then pure true
  else throw (invalid flag)

theorem inverse_boolean (invalid : UInt8 → ε) :
    Inverse (fun _ => True) (pushBool (ε := ε)) (boolean invalid) where
  get_put {v b} _ hb rest :=
    reads_bind.2 ⟨_, rest, inverse_u8.get_put trivial hb rest, by cases v <;> rfl⟩
  put_get {bs v rest} hr := by
    obtain ⟨flag, mid, hflag, hnext⟩ := reads_bind.1 hr
    obtain ⟨-, b, hb, rfl⟩ := inverse_u8.put_get hflag
    split at hnext
    · next h0 =>
      obtain ⟨rfl, rfl⟩ := reads_pure.1 hnext
      subst h0
      exact ⟨trivial, b, hb, rfl⟩
    · split at hnext
      · next h1 =>
        obtain ⟨rfl, rfl⟩ := reads_pure.1 hnext
        subst h1
        exact ⟨trivial, b, hb, rfl⟩
      · exact absurd hnext not_reads_throw

/-- A count, as 32 bits. -/
def pushCount (n : ℕ) : Put ε Unit := do
  pushU32 (← lenU32 (ε := ε) n)

def count : Get ε ℕ := do return (← u32).toNat

theorem inverse_count : Inverse (fun _ => True) (pushCount (ε := ε)) count :=
  inverse_sized inverse_u32 fun _ _ => lenU32_eq_ok

/-- An array of `n` bytes. -/
structure Block (n : ℕ) where
  bytes : Bytes
  length_eq : bytes.length = n
  deriving DecidableEq

theorem block_ext {n : ℕ} : ∀ {a b : Block n}, a.bytes = b.bytes → a = b
  | ⟨_, _⟩, ⟨_, _⟩, rfl => rfl

/-- The next `n` bytes, as an array. -/
def block (n : ℕ) : Get ε (Block n) := fun bs =>
  if h : n ≤ bs.length then .ok (⟨bs.take n, List.length_take_of_le h⟩, bs.drop n)
  else .error WireError.truncated

theorem reads_block {n : ℕ} {bs rest : Bytes} {a : Block n} :
    Reads (block n : Get ε (Block n)) bs a rest ↔ bs = a.bytes ++ rest := by
  unfold Reads block
  change (if h : n ≤ bs.length then Except.ok ((⟨bs.take n, _⟩ : Block n), bs.drop n) else _) = _ ↔ _
  split
  · next hn =>
    constructor
    · intro h
      obtain ⟨rfl, rfl⟩ := Prod.mk.inj (Except.ok.inj h)
      exact (List.take_append_drop n bs).symm
    · rintro rfl
      obtain ⟨b, rfl⟩ := a
      simp only [List.take_left, List.drop_left]
  · next hn =>
    refine ⟨fun h => (nomatch h), fun h => absurd ?_ hn⟩
    rw [h, List.length_append, a.length_eq]
    exact Nat.le_add_right _ _

theorem inverse_block (n : ℕ) :
    Inverse (fun _ => True) (fun a : Block n => (tell a.bytes : Put ε Unit)) (block n) where
  get_put _ hb rest := by
    rw [emits_tell] at hb
    subst hb
    exact reads_block.2 rfl
  put_get hr := ⟨trivial, _, emits_tell.2 rfl, reads_block.1 hr⟩

omit [WireError ε] in
/-- **An optional value whose absence is one of the values**: that value itself cannot be
written as present. -/
theorem inverse_sentinel [DecidableEq α] {put : α → Put ε Unit} {get : Get ε α}
    (h : Inverse (fun _ => True) put get) (absent : α) :
    Inverse (fun o : Option α => o ≠ some absent) (fun o => put (o.getD absent))
      (get >>= fun a => pure (if a = absent then none else some a)) where
  get_put {o b} ho hb rest := by
    refine reads_bind.2 ⟨o.getD absent, rest, h.get_put trivial hb rest, reads_pure.2 ⟨?_, rfl⟩⟩
    cases o with
    | none => rw [Option.getD_none, if_pos rfl]
    | some a => rw [Option.getD_some, if_neg fun h => ho (congrArg some h)]
  put_get {bs o rest} hr := by
    obtain ⟨a, mid, ha, hr⟩ := reads_bind.1 hr
    obtain ⟨rfl, rfl⟩ := reads_pure.1 hr
    obtain ⟨-, b, hb, rfl⟩ := h.put_get ha
    by_cases habs : a = absent
    · rw [if_pos habs]
      exact ⟨fun h => (nomatch h), b, habs ▸ hb, rfl⟩
    · rw [if_neg habs]
      exact ⟨fun h => habs (Option.some.inj h), b, hb, rfl⟩

/-! ## Codecs of whole types

A codec handles every value of its type.  `kind` is the law of one constructor of a tagged sum,
written as its fields after the tag. -/

/-- **A codec for all the values of its type.** -/
abbrev Codec (put : α → Put ε Unit) (get : Get ε α) : Prop := Inverse (fun _ => True) put get

theorem codec_option {put : α → Put ε Unit} {get : Get ε α} {invalid : UInt8 → ε}
    (h : Codec put get) : Codec (pushOption put) (getOption invalid get) :=
  (inverse_option _ h).domain fun _ => by simp

theorem codec_list {put : α → Put ε Unit} {get : Get ε α} (h : Codec put get) :
    Codec (pushList put) (getList get) :=
  (inverse_list h).domain fun _ => by simp

end Blocks

section Tagged

variable {δ τ : Type} {tag : α → τ} {t : τ} {body : α → Put ε Unit} {put₁ : β → Put ε Unit}
  {get₁ : Get ε β} {put₂ : γ → Put ε Unit} {get₂ : Get ε γ} {put₃ : δ → Put ε Unit}
  {get₃ : Get ε δ}

theorem codec_pair (h₁ : Codec put₁ get₁) (h₂ : Codec put₂ get₂) :
    Codec (fun p => do put₁ p.1; put₂ p.2) (get₁ >>= fun a => get₂ >>= fun b => pure (a, b)) :=
  (h₁.pair h₂).domain fun _ => by simp

theorem kind₁ (h : Codec put₁ get₁) (c : β → α) (hput : ∀ b, body (c b) = put₁ b)
    (htag : ∀ a, tag a = t ↔ ∃ b, c b = a) :
    Inverse (fun a => True ∧ tag a = t) body (do return c (← get₁)) :=
  h.variant c hput rfl fun a => by rw [true_and, htag]; simp

theorem kind₂ (h₁ : Codec put₁ get₁) (h₂ : Codec put₂ get₂) (c : β → γ → α)
    (hput : ∀ x y, body (c x y) = do put₁ x; put₂ y) (htag : ∀ a, tag a = t ↔ ∃ x y, c x y = a) :
    Inverse (fun a => True ∧ tag a = t) body (do return c (← get₁) (← get₂)) :=
  (codec_pair h₁ h₂).variant (fun p => c p.1 p.2) (fun _ => hput ..)
    (by simp only [bind_assoc, pure_bind]) fun a => by rw [true_and, htag]; simp

theorem kind₃ (h₁ : Codec put₁ get₁) (h₂ : Codec put₂ get₂) (h₃ : Codec put₃ get₃)
    (c : β → γ → δ → α) (hput : ∀ x y z, body (c x y z) = do put₁ x; put₂ y; put₃ z)
    (htag : ∀ a, tag a = t ↔ ∃ x y z, c x y z = a) :
    Inverse (fun a => True ∧ tag a = t) body (do return c (← get₁) (← get₂) (← get₃)) :=
  (codec_pair h₁ (codec_pair h₂ h₃)).variant (fun p => c p.1 p.2.1 p.2.2) (fun _ => hput ..)
    (by simp only [bind_assoc, pure_bind]) fun a => by rw [true_and, htag]; simp

/-- Where there is nothing to write, the decoder refuses. -/
theorem inverse_throw {P : α → Prop} {e : ε} (h : ∀ a, ¬ P a) :
    Inverse P body (throw e : Get ε α) where
  get_put ha := absurd ha (h _)
  put_get hr := absurd hr not_reads_throw

/-- A tag that names no constructor is refused. -/
theorem no_kind {e : ε} (h : ∀ a, tag a ≠ t) :
    Inverse (fun a => True ∧ tag a = t) body (throw e : Get ε α) :=
  inverse_throw fun a ha => h a ha.2

end Tagged

/-! ## What an encoder refuses -/

section Tame

variable [WireError ε] {x : Put ε Unit} {f : Unit → Put ε Unit}

/-- **The only refusal is that a length does not fit its field.** -/
def Tame (x : Put ε Unit) : Prop := ∀ e, x.run = .error e → e = WireError.overflow

theorem tame_pure : Tame (pure () : Put ε Unit) := fun _ h => nomatch h

theorem tame_tell (b : Bytes) : Tame (tell b : Put ε Unit) := fun _ h => nomatch h

theorem Tame.bind (hx : Tame x) (hf : Tame (f ())) : Tame (x >>= f) := by
  intro e he
  change (x.run >>= fun p => (fun q => (q.1, p.2 ++ q.2)) <$> (f p.1).run) = _ at he
  cases hrun : x.run with
  | error e' =>
    rw [hrun] at he
    exact Except.error.inj he ▸ hx e' hrun
  | ok p =>
    obtain ⟨⟨⟩, b⟩ := p
    rw [hrun] at he
    change (fun q => (q.1, b ++ q.2)) <$> (f ()).run = _ at he
    cases hrun' : (f ()).run with
    | error e' =>
      rw [hrun'] at he
      exact Except.error.inj he ▸ hf e' hrun'
    | ok q => rw [hrun'] at he; exact nomatch he

theorem tame_lift_bind {r : Except ε α} {g : α → Put ε Unit}
    (hr : ∀ e, r = .error e → e = WireError.overflow) (hg : ∀ a, r = .ok a → Tame (g a)) :
    Tame (liftM r >>= g) := by
  cases r with
  | error e' => exact fun e he => Except.error.inj he ▸ hr e' rfl
  | ok a =>
    have hrun : (liftM (Except.ok a : Except ε α) >>= g : Put ε Unit).run = (g a).run := by
      change (fun q : Unit × Bytes => (q.1, [] ++ q.2)) <$> (g a).run = _
      cases (g a).run <;> rfl
    intro e he
    exact hg a rfl e (hrun ▸ he)

theorem tame_forM {put : α → Put ε Unit} : ∀ {l : List α}, (∀ a ∈ l, Tame (put a)) →
    Tame (l.forM put)
  | [], _ => tame_pure
  | _ :: _, h => .bind (h _ (by simp)) (tame_forM fun a ha => h a (by simp [ha]))

theorem tame_pushU8 (v : UInt8) : Tame (pushU8 v : Put ε Unit) := tame_tell _
theorem tame_pushU16 (v : UInt16) : Tame (pushU16 v : Put ε Unit) := tame_tell _
theorem tame_pushU32 (v : UInt32) : Tame (pushU32 v : Put ε Unit) := tame_tell _
theorem tame_pushU64 (v : UInt64) : Tame (pushU64 v : Put ε Unit) := tame_tell _

/-- A length in front of a block. -/
theorem tame_counted (n : ℕ) (hx : Tame x) :
    Tame (do pushU32 (← lenU32 (ε := ε) n); x : Put ε Unit) :=
  tame_lift_bind (fun _ he => lenU32_error he) fun _ _ => .bind (tame_pushU32 _) hx

theorem tame_pushUsize (n : ℕ) : Tame (pushUsize n : Put ε Unit) :=
  tame_lift_bind (fun _ he => lenU64_error he) fun _ _ => tame_pushU64 _

theorem tame_pushBytes (b : Bytes) : Tame (pushBytes b : Put ε Unit) :=
  tame_counted _ (tame_tell b)

theorem tame_refuse_bind {c : Prop} [Decidable c] {e : ε} (hc : ¬ c) (hx : Tame x) :
    Tame (refuse c e >>= fun _ => x) := by
  rw [refuse, if_neg hc]
  exact tame_pure.bind hx

theorem tame_pushString (s : String) : Tame (pushString s : Put ε Unit) := tame_pushBytes _

theorem tame_pushBool (v : Bool) : Tame (pushBool v : Put ε Unit) := tame_pushU8 _

theorem tame_pushList {put : α → Put ε Unit} (h : ∀ a, Tame (put a)) (l : List α) :
    Tame (pushList put l) := tame_counted _ (tame_forM fun a _ => h a)

theorem tame_pushOption {put : α → Put ε Unit} (h : ∀ a, Tame (put a)) (o : Option α) :
    Tame (pushOption put o) := by
  cases o with
  | none => exact tame_pushU8 0
  | some a => exact .bind (tame_pushU8 1) (h a)

/-- The refusal of a tame encoder, read on the bytes it writes. -/
theorem Tame.written_error (hx : Tame x) {e : ε} (h : written x = .error e) :
    e = WireError.overflow := by
  unfold written at h
  cases hrun : x.run with
  | error e' =>
    rw [hrun] at h
    exact Except.error.inj h ▸ hx e' hrun
  | ok p => rw [hrun] at h; exact nomatch h

end Tame

end Wire
