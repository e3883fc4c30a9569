import SmoFramework.Library.Cursor

/-! Programs that move a position over a fixed input and are stopped before they look outside of it. A
checked program *agrees* with an unchecked one if it has the same outcome, so that it is never stopped,
from every position inside the input. Agreement composes along the steps of the programs. -/
namespace SmoFramework.Library.Cursor
variable {β ε α γ : Type}

/-- An error of the program, or a look at a part of the input that is not there. -/
inductive Fault (ε : Type)
  | failed (e : ε)
  | outside (off len : ℕ)
  deriving DecidableEq, Repr

abbrev Checked (ε α : Type) := Cursor (Fault ε) α

def slice (data : List β) (off len : ℕ) : Checked ε (List β) :=
  if off+len ≤ data.length then Pure.pure ((data.drop off).take len) else throw (.outside off len)

def element (data : List β) (off : ℕ) (default : β) : Checked ε β :=
  if off < data.length then Pure.pure (data.getD off default) else throw (.outside off 1)

/-- From this position the programs have the same outcome, and they stay inside. -/
structure AgreesAt (data : List β) (p : ℕ) (c : Checked ε α) (r : Cursor ε α) : Prop where
  same : c.run p = (r.run p).mapError Fault.failed
  inside : ∀ a q, r.run p = .ok (a,q) → q ≤ data.length

def Agrees (data : List β) (c : Checked ε α) (r : Cursor ε α) : Prop :=
  ∀ p ≤ data.length, AgreesAt data p c r

section
variable {data : List β} {p : ℕ} {c : Checked ε α} {r : Cursor ε α}

lemma AgreesAt.pure (h : p ≤ data.length) (a : α) :
    AgreesAt data p (Pure.pure a : Checked ε α) (Pure.pure a) where
  same := rfl
  inside := by
    rintro _ _ ⟨⟩
    exact h

lemma AgreesAt.throw (e : ε) :
    AgreesAt data p (MonadExcept.throw (Fault.failed e) : Checked ε α) (MonadExcept.throw e) where
  same := rfl
  inside := by
    rintro a q h
    cases h

variable {f : α → Checked ε γ} {g : α → Cursor ε γ}

lemma AgreesAt.bind (h : AgreesAt data p c r)
    (h' : ∀ a, Agrees data (f a) (g a)) : AgreesAt data p (c >>= f) (r >>= g) := by
  constructor
  · rw [StateT.run_bind,StateT.run_bind,h.same]
    cases hr : r.run p with
    | error e => rfl
    | ok v =>
      obtain ⟨a,q⟩ := v
      exact (h' a q (h.inside a q hr)).same
  · intro b q hb
    rw [StateT.run_bind] at hb
    cases hr : r.run p with
    | error e =>
      rw [hr] at hb
      cases hb
    | ok v =>
      obtain ⟨a,p'⟩ := v
      rw [hr] at hb
      exact (h' a p' (h.inside a p' hr)).inside b q hb

lemma AgreesAt.get {f : ℕ → Checked ε γ} {g : ℕ → Cursor ε γ} (h : AgreesAt data p (f p) (g p)) :
    AgreesAt data p (MonadState.get >>= f) (MonadState.get >>= g) := ⟨h.same,h.inside⟩

lemma AgreesAt.set {f : PUnit → Checked ε γ} {g : PUnit → Cursor ε γ}
    (h : AgreesAt data q (f ⟨⟩) (g ⟨⟩)) :
    AgreesAt data p (MonadStateOf.set q >>= f) (MonadStateOf.set q >>= g) := ⟨h.same,h.inside⟩

lemma AgreesAt.ite {t : Prop} [Decidable t]
    (h : t → AgreesAt data p c r) (h' : ¬t → AgreesAt data p c' r') :
    AgreesAt data p (if t then c else c') (if t then r else r') := by
  by_cases ht : t
  · rw [if_pos ht,if_pos ht]
    exact h ht
  · rw [if_neg ht,if_neg ht]
    exact h' ht

lemma AgreesAt.element {off : ℕ} {default : β} {f : β → Checked ε γ} {r : Cursor ε γ}
    (hoff : off < data.length) (h : AgreesAt data p (f (data.getD off default)) r) :
    AgreesAt data p (Cursor.element data off default >>= f) r := by
  unfold Cursor.element
  rw [if_pos hoff,pure_bind]
  exact h

lemma AgreesAt.slice {f : List β → Checked ε γ} {r : Cursor ε γ}
    (hoff : off+len ≤ data.length) (h : AgreesAt data p (f ((data.drop off).take len)) r) :
    AgreesAt data p (Cursor.slice data off len >>= f) r := by
  unfold Cursor.slice
  rw [if_pos hoff,pure_bind]
  exact h

lemma Agrees.pure (a : α) : Agrees data (Pure.pure a : Checked ε α) (Pure.pure a) :=
  fun _ h => .pure h a

lemma Agrees.bind (h : Agrees data c r)
    (h' : ∀ a, Agrees data (f a) (g a)) : Agrees data (c >>= f) (r >>= g) :=
  fun p hp => (h p hp).bind h'

lemma Agrees.map (h : Agrees data c r) (f : α → γ) :
    Agrees data (c >>= fun a => Pure.pure (f a)) (r >>= fun a => Pure.pure (f a)) :=
  h.bind fun a => .pure (f a)

lemma Agrees.ite {t : Prop} [Decidable t] (h : Agrees data c r) (h' : Agrees data c' r') :
    Agrees data (if t then c else c') (if t then r else r') :=
  fun p hp => .ite (fun _ => h p hp) (fun _ => h' p hp)

lemma Agrees.throw (e : ε) :
    Agrees data (MonadExcept.throw (Fault.failed e) : Checked ε α) (MonadExcept.throw e) :=
  fun _ _ => .throw e

lemma Agrees.times {c : Checked ε Unit} {r : Cursor ε Unit} (h : Agrees data c r) (n : ℕ) :
    Agrees data (Cursor.times c n) (Cursor.times r n) := by
  induction n with
  | zero => exact .pure ()
  | succ n ih => exact h.bind fun _ => ih

lemma Agrees.run' (h : Agrees data c r) :
    StateT.run' c 0 = (StateT.run' r 0).mapError Fault.failed := by
  have hsame := (h 0 (Nat.zero_le _)).same
  change (fun v => v.1) <$> c.run 0 = ((fun v => v.1) <$> r.run 0).mapError Fault.failed
  rw [hsame]
  cases r.run 0 <;> rfl

end
end SmoFramework.Library.Cursor
