import Mathlib.Data.Nat.Notation

/-! Calls that change a state, keep what they have changed when they fail, and may never return
because they wait for something. -/
namespace SmoFramework.Library

abbrev Attempt (σ ε α : Type) := ExceptT ε (StateT σ Option) α

namespace Attempt
variable {σ τ ε α β : Type}

def outcome (x : Attempt σ ε α) (s : σ) : Option (Except ε α × σ) := x.run.run s

def lift (r : Except ε α) : Attempt σ ε α := fun s => some (r,s)

def update (f : σ → σ) : Attempt σ ε Unit := fun s => some (.ok (),f s)

def view (f : σ → α) : Attempt σ ε α := fun s => some (.ok (f s),s)

def ensure (p : Prop) [Decidable p] (e : ε) : Attempt σ ε Unit := lift (if p then .ok () else .error e)

def each (f : β → Attempt σ ε Unit) : List β → Attempt σ ε Unit
  | [] => pure ()
  | b::bs => do
    f b
    each f bs

def times (x : Attempt σ ε α) : ℕ → Attempt σ ε (List α)
  | 0 => pure []
  | n+1 => do
    let a ← x
    let as ← times x n
    pure (a::as)

@[simp] lemma outcome_pure (a : α) (s : σ) :
    (pure a : Attempt σ ε α).outcome s = some (.ok a,s) := rfl

@[simp] lemma outcome_lift (r : Except ε α) (s : σ) : (lift r).outcome s = some (r,s) := rfl

@[simp] lemma outcome_update (g : σ → σ) (s : σ) :
    (update g : Attempt σ ε Unit).outcome s = some (.ok (),g s) := rfl

@[simp] lemma outcome_view (g : σ → α) (s : σ) :
    (view g : Attempt σ ε α).outcome s = some (.ok (g s),s) := rfl

/-- The call succeeds with this value and leaves this state. -/
def Returns (x : Attempt σ ε α) (s : σ) (a : α) (s' : σ) : Prop := x.outcome s = some (.ok a,s')

variable {x : Attempt σ ε α} {f : α → Attempt σ ε β} {s s' : σ} {a : α} {b : β}

lemma outcome_bind : (x >>= f).outcome s = (x.outcome s).bind fun r => match r with
    | (.ok a,t) => (f a).outcome t
    | (.error e,t) => some (.error e,t) := by
  change (x.outcome s).bind _ = _
  congr 1
  funext r
  obtain ⟨r,t⟩ := r
  cases r with
  | ok a => rfl
  | error e => rfl

lemma Returns.outcome_bind (h : Returns x s a s') : (x >>= f).outcome s = (f a).outcome s' := by
  rw [Attempt.outcome_bind,h]
  rfl

@[simp] lemma returns_bind :
    Returns (x >>= f) s b s' ↔ ∃ a t, Returns x s a t ∧ Returns (f a) t b s' := by
  constructor
  · intro h
    unfold Returns at h
    rw [outcome_bind] at h
    obtain ⟨⟨r,t⟩,hr,h⟩ := Option.bind_eq_some_iff.mp h
    cases r with
    | ok a => exact ⟨a,t,hr,h⟩
    | error e => cases h
  · rintro ⟨a,t,hx,hf⟩
    exact hx.outcome_bind.trans hf

@[simp] lemma returns_pure :
    Returns (pure a : Attempt σ ε α) s a' s' ↔ a' = a ∧ s' = s := by
  constructor
  · intro h
    cases h
    exact ⟨rfl,rfl⟩
  · rintro ⟨rfl,rfl⟩
    rfl

@[simp] lemma returns_lift : Returns (lift r) s a s' ↔ r = .ok a ∧ s' = s := by
  constructor
  · intro h
    cases h
    exact ⟨rfl,rfl⟩
  · rintro ⟨rfl,rfl⟩
    rfl

@[simp] lemma returns_update {g : σ → σ} :
    Returns (update g : Attempt σ ε Unit) s u s' ↔ s' = g s := by
  constructor
  · intro h
    cases h
    rfl
  · rintro rfl
    rfl

@[simp] lemma returns_view {g : σ → α} :
    Returns (view g : Attempt σ ε α) s a s' ↔ a = g s ∧ s' = s := by
  constructor
  · intro h
    cases h
    exact ⟨rfl,rfl⟩
  · rintro ⟨rfl,rfl⟩
    rfl

@[simp] lemma returns_ensure {p : Prop} [Decidable p] :
    Returns (ensure p e) s u s' ↔ p ∧ s' = s := by
  unfold ensure
  rw [returns_lift]
  by_cases hp : p
  · simp [hp]
  · simp [hp]

lemma outcome_look (f : σ → Attempt σ ε α) : (view id >>= f).outcome s = (f s).outcome s := rfl

lemma outcome_ensure_bind {p : Prop} [Decidable p] {f : Unit → Attempt σ ε β} :
    (ensure p e >>= f).outcome s = if p then (f ()).outcome s else some (.error e,s) := by
  rw [outcome_bind,ensure,outcome_lift]
  by_cases hp : p
  · rw [if_pos hp,if_pos hp]
    rfl
  · rw [if_neg hp,if_neg hp]
    rfl

lemma exists_returns (h : (x.outcome s).any (fun r => r.1.isOk) = true) : ∃ a s', Returns x s a s' := by
  unfold Returns
  cases hx : x.outcome s with
  | none =>
    rw [hx] at h
    cases h
  | some r =>
    rw [hx] at h
    obtain ⟨_ | a,s'⟩ := r
    · cases h
    · exact ⟨a,s',rfl⟩

lemma Returns.unique (h : Returns x s a s') (h' : Returns x s a' s'') :
    a = a' ∧ s' = s'' := by
  cases h.symm.trans h'
  exact ⟨rfl,rfl⟩

/-! What a call preserves, however it ends. -/

def Keeps (I : σ → Prop) (x : Attempt σ ε α) : Prop :=
  ∀ s r s', x.outcome s = some (r,s') → I s → I s'

variable {I : σ → Prop}

lemma Keeps.bind (hx : Keeps I x) (hf : ∀ a, Keeps I (f a)) : Keeps I (x >>= f) := by
  intro s r s' h hs
  rw [outcome_bind] at h
  obtain ⟨⟨r',t⟩,hr,h⟩ := Option.bind_eq_some_iff.mp h
  have ht := hx _ _ _ hr hs
  cases r' with
  | ok a => exact hf a _ _ _ h ht
  | error e =>
    cases h
    exact ht

lemma Keeps.lift (r : Except ε α) : Keeps I (lift r) := by
  rintro s _ _ ⟨⟩ hs
  exact hs

lemma Keeps.view (g : σ → α) : Keeps I (view g : Attempt σ ε α) := by
  rintro s _ _ ⟨⟩ hs
  exact hs

lemma Keeps.update {g : σ → σ} (h : ∀ s, I s → I (g s)) : Keeps I (update g : Attempt σ ε Unit) := by
  rintro s _ _ ⟨⟩ hs
  exact h s hs

lemma Keeps.pure (a : α) : Keeps I (pure a : Attempt σ ε α) := by
  rintro s _ _ ⟨⟩ hs
  exact hs

lemma Keeps.ensure (p : Prop) [Decidable p] (e : ε) : Keeps I (ensure p e) := .lift _

lemma Keeps.each {g : β → Attempt σ ε Unit} (h : ∀ b, Keeps I (g b)) (bs : List β) :
    Keeps I (each g bs) := by
  induction bs with
  | nil => exact .pure ()
  | cons b bs ih => exact (h b).bind fun _ => ih

lemma Keeps.ite {c : Prop} [Decidable c] (hx : Keeps I x) (hy : Keeps I y) :
    Keeps I (if c then x else y) := by
  split
  · exact hx
  · exact hy

/-! A part of the state that a call does not look at. -/

/-- From a changed state the call goes as from the old one, and leaves its state changed likewise. -/
def Ignores (g : σ → σ) (x : Attempt σ ε α) : Prop :=
  ∀ s, x.outcome (g s) = (x.outcome s).map (Prod.map id g)

section
variable {g : σ → σ}

lemma Ignores.returns (hx : Ignores g x) (h : Returns x s a s') : Returns x (g s) a (g s') := by
  rw [Returns,hx s,h]
  rfl

lemma Ignores.lift (r : Except ε α) : Ignores g (lift r) := fun _ => rfl

lemma Ignores.update {u : σ → σ} (h : ∀ s, u (g s) = g (u s)) :
    Ignores g (update u : Attempt σ ε Unit) := by
  intro s
  rw [outcome_update,h]
  rfl

lemma Ignores.bind (hx : Ignores g x) (hf : ∀ a, Ignores g (f a)) : Ignores g (x >>= f) := by
  intro s
  rw [outcome_bind,outcome_bind,hx]
  cases x.outcome s with
  | none => rfl
  | some r =>
    obtain ⟨e | a,t⟩ := r
    · rfl
    · exact hf a t

/-- What is looked at may differ, as long as the rest of the call is the same. -/
lemma Ignores.view {v : σ → β} {f : β → Attempt σ ε α} (hf : ∀ b, Ignores g (f b))
    (hsame : ∀ s, f (v (g s)) = f (v s)) : Ignores g (view v >>= f) := by
  intro s
  rw [outcome_bind,outcome_bind,outcome_view,outcome_view]
  change (f (v (g s))).outcome (g s) = ((f (v s)).outcome s).map _
  rw [hsame]
  exact hf (v s) s

end

/-! Loops within loops. -/

lemma each_append (g : β → Attempt σ ε Unit) (bs bs' : List β) :
    each g (bs ++ bs') = each g bs >>= fun _ => each g bs' := by
  induction bs with
  | nil => simp [each]
  | cons b bs ih => simp [each,ih]

lemma each_flatMap {γ : Type} (g : β → Attempt σ ε Unit) (parts : γ → List β) (cs : List γ) :
    each (fun c => each g (parts c)) cs = each g (cs.flatMap parts) := by
  induction cs with
  | nil => rfl
  | cons c cs ih => rw [List.flatMap_cons,each_append,← ih,each]

/-! What holds for every value that a call returns. -/

def Ensures (Q : α → Prop) (x : Attempt σ ε α) : Prop := ∀ s a s', Returns x s a s' → Q a

section
variable {Q : α → Prop}

lemma Ensures.pure (ha : Q a) : Ensures Q (pure a : Attempt σ ε α) := by
  intro s a' s' h
  rwa [(returns_pure.mp h).1]

lemma Ensures.bind {x : Attempt σ ε β} {f : β → Attempt σ ε α} (h : ∀ b, Ensures Q (f b)) :
    Ensures Q (x >>= f) := by
  intro s a s' hret
  obtain ⟨b,t,-,hret⟩ := returns_bind.mp hret
  exact h b t a s' hret

lemma Ensures.ite {c : Prop} [Decidable c] (hx : Ensures Q x) (hy : Ensures Q y) :
    Ensures Q (if c then x else y) := by
  split
  · exact hx
  · exact hy

end

/-! Errors that a call avoids. -/

/-- From this state the call does not end with a bad error, and it keeps the invariant when it
succeeds. -/
def Avoids (I : σ → Prop) (Bad : ε → Prop) (x : Attempt σ ε α) (s : σ) : Prop :=
  ∀ r s', x.outcome s = some (r,s') → match r with
    | .ok _ => I s'
    | .error e => ¬Bad e

section
variable {Bad : ε → Prop}

lemma Avoids.pure (a : α) (hs : I s) : Avoids I Bad (pure a : Attempt σ ε α) s := by
  rintro _ _ ⟨⟩
  exact hs

lemma Avoids.bind_returned (hx : Avoids I Bad x s)
    (hf : ∀ a t, Returns x s a t → I t → Avoids I Bad (f a) t) : Avoids I Bad (x >>= f) s := by
  intro r s' h
  rw [outcome_bind] at h
  obtain ⟨⟨r',t⟩,hr,h⟩ := Option.bind_eq_some_iff.mp h
  have ht := hx _ _ hr
  cases r' with
  | ok a => exact hf a t hr ht _ _ h
  | error e =>
    cases h
    exact ht

lemma Avoids.bind (hx : Avoids I Bad x s) (hf : ∀ a t, I t → Avoids I Bad (f a) t) :
    Avoids I Bad (x >>= f) s := hx.bind_returned fun a t _ => hf a t

end

section
variable {snd : α → Attempt σ ε Unit} {rcv : Attempt τ ε α} {Good : α → Prop}

lemma times_each_iff (Sync : σ → σ → τ → Prop)
    (hgood : ∀ {m a b z r}, Returns (snd m) a () b → (∃ ms, Returns (each snd ms) b () z) →
      Sync a z r → Good m → ∃ r', Returns rcv r m r' ∧ Sync b z r')
    (hbad : ∀ {m a b z r r'}, Returns (snd m) a () b → (∃ ms, Returns (each snd ms) b () z) →
      Sync a z r → Returns rcv r m r' → Good m)
    {a z : σ} (hsent : Returns (each snd ms) a () z) (hsync : Sync a z r) :
    (∃ r', Returns (times rcv ms.length) r ms r') ↔ ∀ m ∈ ms, Good m := by
  induction ms generalizing a r with
  | nil => simp [times]
  | cons m ms ih =>
    obtain ⟨_,b,hm,hms⟩ := returns_bind.mp hsent
    simp only [List.length_cons,times,returns_bind,returns_pure,List.forall_mem_cons]
    constructor
    · rintro ⟨_,m',r₁,hr₁,ms',r₂,hr₂,heq,rfl⟩
      cases heq
      have hg := hbad hm ⟨ms,hms⟩ hsync hr₁
      obtain ⟨r₁',hr₁',hsync'⟩ := hgood hm ⟨ms,hms⟩ hsync hg
      obtain ⟨-,rfl⟩ := hr₁.unique hr₁'
      exact ⟨hg,(ih hms hsync').mp ⟨_,hr₂⟩⟩
    · rintro ⟨hg,hrest⟩
      obtain ⟨r₁,hr₁,hsync'⟩ := hgood hm ⟨ms,hms⟩ hsync hg
      obtain ⟨r₂,hr₂⟩ := (ih hms hsync').mpr hrest
      exact ⟨r₂,m,r₁,hr₁,ms,r₂,hr₂,rfl,rfl⟩

end
/-! Runs seen through a part of the state, such as the input that is left. -/

section
variable {ι : Type} {look : σ → ι} {y z : Attempt σ ε α} {i j k : ι}

/-- From every state that looks like `i`, the call ends as another one does from a state that looks like
`j`. -/
def Goes (look : σ → ι) (x : Attempt σ ε α) (i : ι) (y : Attempt σ ε α) (j : ι) : Prop :=
  ∀ s, look s = i → ∃ t, look t = j ∧ x.outcome s = y.outcome t

lemma Goes.refl (x : Attempt σ ε α) (i : ι) : Goes look x i x i := fun s hs => ⟨s,hs,rfl⟩

lemma Goes.trans (h : Goes look x i y j) (h' : Goes look y j z k) : Goes look x i z k := by
  intro s hs
  obtain ⟨t,ht,hout⟩ := h s hs
  obtain ⟨u,hu,hout'⟩ := h' t ht
  exact ⟨u,hu,hout.trans hout'⟩

lemma Goes.bind_left (h : Goes look x i y j) : Goes look (x >>= f) i (y >>= f) j := by
  intro s hs
  obtain ⟨t,ht,hout⟩ := h s hs
  exact ⟨t,ht,by rw [outcome_bind,outcome_bind,hout]⟩

lemma Goes.bind {z : Attempt σ ε β} (h : Goes look x i (pure a) j) (h' : Goes look (f a) j z k) :
    Goes look (x >>= f) i z k := by
  refine (h.bind_left (f := f)).trans ?_
  rwa [pure_bind]

lemma Goes.fail (h : Goes look x i (.lift (.error e)) j) :
    Goes look (x >>= f) i (.lift (.error e)) j := h.bind_left

lemma times_add (x : Attempt σ ε α) (m n : ℕ) :
    times x (m+n) = times x m >>= fun as => times x n >>= fun bs => pure (as ++ bs) := by
  induction m with
  | zero => simp [times]
  | succ m ih => simp [times,Nat.succ_add,ih]

lemma Goes.times_append (h : Goes look (times x m) i (pure as) j)
    (h' : Goes look (times x n) j (pure bs) k) :
    Goes look (times x (m+n)) i (pure (as ++ bs)) k := by
  rw [times_add]
  exact h.bind (h'.bind (.refl _ _))

lemma Goes.times_one (h : Goes look x i (pure a) j) : Goes look (times x 1) i (pure [a]) j :=
  h.bind (.refl _ _)

lemma Goes.times_returns (h : Goes look (times x m) i (pure as) j)
    (hs : look s = i) (hret : Returns (times x (m+n)) s cs s') : as <+: cs := by
  rw [times_add,returns_bind] at hret
  obtain ⟨as',t,has,hret⟩ := hret
  obtain ⟨u,-,hout⟩ := h s hs
  obtain ⟨rfl,-⟩ := Returns.unique has hout
  rw [returns_bind] at hret
  obtain ⟨bs,_,-,hret⟩ := hret
  exact ⟨bs,(returns_pure.mp hret).1.symm⟩

lemma Goes.times_flatMap {κ γ : Type} {look : σ → List κ} {write : γ → List κ} {value : γ → α}
    {cs : List γ} {rest : List κ}
    (h : ∀ c ∈ cs, ∀ rest, Goes look x (write c ++ rest) (pure (value c)) rest) :
    Goes look (times x cs.length) (cs.flatMap write ++ rest) (pure (cs.map value)) rest := by
  induction cs with
  | nil => exact .refl _ _
  | cons c cs ih =>
    obtain ⟨hc,hcs⟩ := List.forall_mem_cons.mp h
    rw [List.flatMap_cons,List.append_assoc]
    exact (hc _).bind ((ih hcs).bind (.refl _ _))

end
end Attempt
end SmoFramework.Library
