import SmoFramework.Library.CheckedCursor
import SmoFramework.Library.Reader

/-! Readers as programs that move a position. A checked program *follows* a reader if from every
position it has the reader's answer on what is left there: then it is never stopped, and all that is
known of the reader is known of it. -/
namespace SmoFramework.Library.Cursor
open List Reader
variable {β ε α γ : Type}

structure FollowsAt (data : List β) (p : ℕ) (c : Checked ε α) (r : Reader β ε α) : Prop where
  failed : ∀ e, r.run (data.drop p) = .error e → c.run p = .error (.failed e)
  done : ∀ a rest, r.run (data.drop p) = .ok (a,rest) →
    ∃ q ≤ data.length, rest = data.drop q ∧ c.run p = .ok (a,q)

def Follows (data : List β) (c : Checked ε α) (r : Reader β ε α) : Prop :=
  ∀ p ≤ data.length, FollowsAt data p c r

section
variable {data : List β} {p : ℕ} {c : Checked ε α} {r : Reader β ε α}

lemma FollowsAt.pure (h : p ≤ data.length) (a : α) :
    FollowsAt data p (Pure.pure a : Checked ε α) (Pure.pure a) where
  failed := by
    rintro e he
    cases he
  done := by
    rintro _ _ ⟨⟩
    exact ⟨p,h,rfl,rfl⟩

variable {f : α → Checked ε γ} {g : α → Reader β ε γ}

lemma FollowsAt.bind (h : FollowsAt data p c r)
    (h' : ∀ a, Follows data (f a) (g a)) : FollowsAt data p (c >>= f) (r >>= g) := by
  cases hr : r.run (data.drop p) with
  | error e =>
    have hbind : (r >>= g).run (data.drop p) = .error e := by
      rw [StateT.run_bind,hr]
      rfl
    constructor
    · intro e' he
      rw [hbind] at he
      cases he
      rw [StateT.run_bind,h.failed e hr]
      rfl
    · intro a rest ha
      rw [hbind] at ha
      cases ha
  | ok v =>
    obtain ⟨a,rest⟩ := v
    obtain ⟨q,hq,rfl,hrun⟩ := h.done a rest hr
    have hbind : (r >>= g).run (data.drop p) = (g a).run (data.drop q) := by
      rw [StateT.run_bind,hr]
      rfl
    have hcheck : (c >>= f).run p = (f a).run q := by
      rw [StateT.run_bind,hrun]
      rfl
    obtain ⟨hfailed,hdone⟩ := h' a q hq
    exact ⟨by rwa [hbind,hcheck],by rwa [hbind,hcheck]⟩

lemma Follows.pure (a : α) : Follows data (Pure.pure a : Checked ε α) (Pure.pure a) :=
  fun _ h => .pure h a

lemma Follows.bind (h : Follows data c r)
    (h' : ∀ a, Follows data (f a) (g a)) : Follows data (c >>= f) (r >>= g) :=
  fun p hp => (h p hp).bind h'

lemma Follows.ifLeft [DecidableEq β] (h : Follows data c r)
    (h' : Follows data c' r') : Follows data (do let off ← get; if off < data.length then c else c')
      (do let rest ← get; if rest = [] then r' else r) := by
  intro p hp
  change FollowsAt data p (fun p => (if p < data.length then c else c' : Checked ε α) p)
    (fun rest => (if rest = [] then r' else r : Reader β ε α) rest)
  by_cases hlt : p < data.length
  · have hne : data.drop p ≠ [] := by
      rw [Ne,drop_eq_nil_iff]
      omega
    obtain ⟨hfailed,hdone⟩ := h p hp
    constructor
    · simpa only [StateT.run,if_pos hlt,if_neg hne] using hfailed
    · simpa only [StateT.run,if_pos hlt,if_neg hne] using hdone
  · have hnil : data.drop p = [] := drop_eq_nil_of_le (not_lt.mp hlt)
    obtain ⟨hfailed,hdone⟩ := h' p hp
    constructor
    · simpa only [StateT.run,if_neg hlt,if_pos hnil] using hfailed
    · simpa only [StateT.run,if_neg hlt,if_pos hnil] using hdone

def valuesOf (c : Checked ε α) : ℕ → Checked ε (List α)
  | 0 => Pure.pure []
  | n+1 => do
    let a ← c
    let as ← valuesOf c n
    Pure.pure (a::as)

lemma Follows.times (h : Follows data c r) (n : ℕ) :
    Follows data (valuesOf c n) (Reader.times r n) := by
  induction n with
  | zero => exact .pure []
  | succ n ih => exact h.bind fun a => ih.bind fun as => .pure (a::as)

lemma Follows.lift (h : x = y.mapError Fault.failed) :
    Follows data (StateT.lift x) (Reader.lift y) := by
  subst h
  intro p hp
  cases y with
  | error e =>
    constructor
    · rintro _ ⟨⟩
      rfl
    · rintro a rest ⟨⟩
  | ok b =>
    constructor
    · rintro e ⟨⟩
    · rintro _ _ ⟨⟩
      exact ⟨p,hp,rfl,rfl⟩

variable (data) in
def part (n : ℕ) (e : ε) : Checked ε (List β) := do
  let off ← get
  if off+n > data.length then throw (.failed e)
  else
    let bytes ← slice data off n
    set (off+n)
    Pure.pure bytes

lemma run_part {e : ε} (h : p+n ≤ data.length) :
    (Cursor.part data n e).run p = .ok ((data.drop p).take n,p+n) := by
  change (if p+n > data.length then _ else _ : Checked ε (List β)) p = _
  rw [if_neg (not_lt.mpr h),slice,if_pos h]
  rfl

lemma run_part_eq_failed {e : ε} (h : ¬p+n ≤ data.length) :
    (Cursor.part data n e).run p = .error (.failed e) := by
  change (if p+n > data.length then _ else _ : Checked ε (List β)) p = _
  rw [if_pos (not_le.mp h)]
  rfl

lemma Follows.part (e : ε) {f : List β → Checked ε γ} {g : List.Vector β n → Reader β ε γ}
    (h : ∀ v, Follows data (f v.toList) (g v)) :
    Follows data (Cursor.part data n e >>= f) (Reader.vector n e >>= g) := by
  intro p hp
  by_cases hlen : p+n ≤ data.length
  · have hn : n ≤ (data.drop p).length := by rw [length_drop]; omega
    have hvector : (vector n e).run (data.drop p) =
        .ok (⟨(data.drop p).take n,by rw [length_take,Nat.min_eq_left hn]⟩,data.drop (p+n)) := by
      unfold StateT.run vector
      rw [dif_pos hn,drop_drop]
    obtain ⟨hfailed,hdone⟩ := h ⟨(data.drop p).take n,by rw [length_take,Nat.min_eq_left hn]⟩
      (p+n) hlen
    constructor
    · rw [StateT.run_bind,hvector,StateT.run_bind,run_part hlen]
      exact hfailed
    · rw [StateT.run_bind,hvector,StateT.run_bind,run_part hlen]
      exact hdone
  · have hpart : (Cursor.part data n e >>= f).run p = .error (.failed e) := by
      rw [StateT.run_bind,run_part_eq_failed hlen]
      rfl
    have hvector : (vector n e >>= g).run (data.drop p) = .error e := by
      rw [StateT.run_bind]
      unfold StateT.run vector
      rw [dif_neg (by rw [length_drop]; omega)]
      rfl
    constructor
    · rw [hvector,hpart]
      rintro _ ⟨⟩
      rfl
    · rw [hvector]
      rintro a rest ⟨⟩

variable (data) in
def next (default : β) (e : ε) : Checked ε β := do
  let off ← get
  if off ≥ data.length then throw (.failed e)
  else
    let b ← Cursor.element data off default
    set (off+1)
    Pure.pure b

lemma Follows.next (default : β) (e : ε) :
    Follows data (Cursor.next data default e) (Reader.symbol e) := by
  intro p hp
  by_cases hlt : p < data.length
  · have hnext : (Cursor.next data default e : Checked ε β).run p =
        .ok (data.getD p default,p+1) := by
      change (if p ≥ data.length then _ else _ : Checked ε β) p = _
      rw [if_neg (not_le.mpr hlt),Cursor.element,if_pos hlt]
      rfl
    have hdrop : data.drop p = data.getD p default::data.drop (p+1) := by
      rw [getD_eq_getElem?_getD,getElem?_eq_getElem hlt,Option.getD_some,drop_eq_getElem_cons hlt]
    constructor
    · rw [hdrop]
      rintro e' ⟨⟩
    · rw [hdrop]
      rintro _ _ ⟨⟩
      exact ⟨p+1,hlt,rfl,hnext⟩
  · have hnext : (Cursor.next data default e : Checked ε β).run p = .error (.failed e) := by
      change (if p ≥ data.length then _ else _ : Checked ε β) p = _
      rw [if_pos (not_lt.mp hlt)]
      rfl
    have hdrop : data.drop p = [] := drop_eq_nil_of_le (not_lt.mp hlt)
    constructor
    · rw [hdrop]
      rintro _ ⟨⟩
      exact hnext
    · rw [hdrop]
      rintro a rest ⟨⟩

/-! A whole program. -/

lemma Follows.run' (h : Follows data c r) :
    StateT.run' c 0 = ((r.run data).map Prod.fst).mapError Fault.failed := by
  obtain ⟨hfailed,hdone⟩ := h 0 (Nat.zero_le _)
  rw [drop_zero] at hfailed hdone
  change (fun v => v.1) <$> c.run 0 = _
  cases hr : r.run data with
  | error e =>
    rw [hfailed e hr]
    rfl
  | ok v =>
    obtain ⟨a,rest⟩ := v
    obtain ⟨q,-,-,hrun⟩ := hdone a rest hr
    rw [hrun]
    rfl

lemma Follows.run_eq_ok (h : Follows data c r) (hc : c.run 0 = .ok (a,q)) :
    q ≤ data.length ∧ r.run data = .ok (a,data.drop q) := by
  obtain ⟨hfailed,hdone⟩ := h 0 (Nat.zero_le _)
  rw [drop_zero] at hfailed hdone
  cases hr : r.run data with
  | error e =>
    rw [hfailed e hr] at hc
    cases hc
  | ok v =>
    obtain ⟨b,rest⟩ := v
    obtain ⟨q',hq',rfl,hrun⟩ := hdone b rest hr
    rw [hrun] at hc
    cases hc
    exact ⟨hq',rfl⟩

end

/-! Inputs that end too early. -/

section
variable {c : List β → Checked ε α} (c : List β → Checked ε α)

/-- No part is looked at that is not there. -/
def Inside (data : List β) : Prop :=
  ∀ off len, (c data).run' 0 ≠ .error (.outside off len)

/-- With something behind it the input is accepted, and some of that is needed. -/
def Truncated (data : List β) : Prop :=
  ∃ tail a q, (c (data ++ tail)).run 0 = .ok (a,q) ∧ data.length < q

/-- Nothing outside is looked at, and an input that ends too early is an error. -/
def SafeOn (data : List β) : Prop :=
  Inside c data ∧ (Truncated c data → ∃ e, (c data).run' 0 = .error (.failed e))

variable {c}

lemma SafeOn.of_stable (hinside : Inside c data)
    (h : ∀ a q, (c data).run 0 = .ok (a,q) →
      q ≤ data.length ∧ ∀ tail, (c (data ++ tail)).run 0 = .ok (a,q)) : SafeOn c data := by
  refine ⟨hinside,?_⟩
  rintro ⟨tail,a,q,hrun,hq⟩
  have hvalue : (c data).run' 0 = ((c data).run 0).map Prod.fst := rfl
  cases hc : (c data).run 0 with
  | error fault =>
    rw [hc] at hvalue
    cases fault with
    | failed e => exact ⟨e,hvalue⟩
    | outside off len => exact absurd hvalue (hinside off len)
  | ok v =>
    obtain ⟨a',q'⟩ := v
    obtain ⟨hq',hlong⟩ := h a' q' hc
    have hsame := (hlong tail).symm.trans hrun
    cases hsame
    omega

lemma SafeOn.of_follows (h : ∀ data, Follows data (c data) r)
    (hstable : Reader.Stable r) (data : List β) : SafeOn c data := by
  refine .of_stable ?_ ?_
  · intro off len hrun
    rw [(h data).run'] at hrun
    cases hr : r.run data with
    | error e =>
      rw [hr] at hrun
      cases hrun
    | ok v =>
      rw [hr] at hrun
      cases hrun
  · intro a q hc
    obtain ⟨hq,hr⟩ := (h data).run_eq_ok hc
    refine ⟨hq,fun tail => ?_⟩
    obtain ⟨q',hq',hrest,hrun⟩ := (h (data ++ tail) 0 (Nat.zero_le _)).done a _
      (hstable data (data.drop q) a hr tail)
    have hlen := congrArg length hrest
    simp only [length_append,length_drop] at hlen hq'
    rw [hrun,show q' = q by omega]

end
end SmoFramework.Library.Cursor
