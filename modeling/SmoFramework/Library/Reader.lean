import Mathlib.Data.Vector.Basic

/-! Readers: programs that take values off the front of a list of symbols and may fail. A reader
*reads* what a writer wrote if it returns the written value and leaves the rest alone, and it is
*stable* if more input behind the part it has used never changes its answer. -/
namespace SmoFramework.Library
open List

abbrev Reader (β ε α : Type) := StateT (List β) (Except ε) α

namespace Reader
variable {β ε α γ : Type}

def symbol (e : ε) : Reader β ε β
  | [] => .error e
  | b::rest => .ok (b,rest)

def vector (n : ℕ) (e : ε) : Reader β ε (List.Vector β n) := fun data =>
  if h : n ≤ data.length then
    .ok (⟨data.take n,by rw [List.length_take,Nat.min_eq_left h]⟩,data.drop n)
  else .error e

def lift (x : Except ε α) : Reader β ε α := fun data => x.map (fun a => (a,data))

def times (r : Reader β ε α) : ℕ → Reader β ε (List α)
  | 0 => pure []
  | n+1 => do
    let a ← r
    let as ← times r n
    pure (a::as)

/-- Whatever follows the word, the reader returns the value and stops behind the word. -/
def Reads (r : Reader β ε α) (word : List β) (a : α) : Prop :=
  ∀ rest, r.run (word ++ rest) = .ok (a,rest)

def Stable (r : Reader β ε α) : Prop :=
  ∀ data rest a, r.run data = .ok (a,rest) → ∀ tail, r.run (data ++ tail) = .ok (a,rest ++ tail)

variable {r : Reader β ε α} {f : α → Reader β ε γ} {word word' : List β} {a : α} {c : γ}

lemma Reads.run_bind (h : Reads r word a) (rest : List β) :
    (r >>= f).run (word ++ rest) = (f a).run rest := by
  rw [StateT.run_bind,h rest]
  rfl

lemma Reads.whole (h : Reads r word a) : (r.run word).map Prod.fst = .ok a := by
  have hrun := h []
  rw [append_nil] at hrun
  rw [hrun]
  rfl

lemma Reads.bind (h : Reads r word a) (h' : Reads (f a) word' c) :
    Reads (r >>= f) (word ++ word') c := by
  intro rest
  rw [append_assoc,h.run_bind,h' rest]

lemma Reads.pure (a : α) : Reads (pure a : Reader β ε α) [] a := fun _ => rfl

lemma Reads.bind_nil (h : Reads r word a) (h' : Reads (f a) [] c) : Reads (r >>= f) word c := by
  rw [← append_nil word]
  exact h.bind h'

lemma Reads.bind_pure {g : α → γ} (h : Reads r word a) :
    Reads (r >>= fun a => Pure.pure (g a)) word (g a) := h.bind_nil (.pure (g a))

lemma Reads.symbol (e : ε) (b : β) : Reads (symbol e) [b] b := fun _ => rfl

lemma Reads.vector (e : ε) (v : List.Vector β n) :
    Reads (Reader.vector n e) v.toList v := by
  intro rest
  have hlen : v.toList.length = n := v.toList_length
  unfold StateT.run Reader.vector
  rw [dif_pos (by rw [length_append,hlen]; omega)]
  congr 2
  · apply List.Vector.eq
    exact take_left' hlen
  · exact drop_left' hlen

lemma Reads.part (e : ε) {part : List β} (h : part.length = n) :
    Reads (Reader.vector n e) part ⟨part,h⟩ := .vector e ⟨part,h⟩

lemma Reads.lift (h : x = .ok a) : Reads (lift x : Reader β ε α) [] a := by
  subst h
  exact fun _ => rfl

lemma Reads.times {ι : Type*} {write : ι → List β} {value : ι → α} {xs : List ι}
    (h : ∀ x ∈ xs, Reads r (write x) (value x)) :
    Reads (times r xs.length) (xs.flatMap write) (xs.map value) := by
  induction xs with
  | nil => exact .pure []
  | cons x xs ih =>
    obtain ⟨hx,hxs⟩ := forall_mem_cons.mp h
    exact hx.bind (ih hxs).bind_pure

/-! What a successful run has read. -/

variable {data rest : List β}

lemma run_bind_eq_ok : (r >>= f).run data = .ok (c,rest) ↔
    ∃ a mid, r.run data = .ok (a,mid) ∧ (f a).run mid = .ok (c,rest) := by
  rw [StateT.run_bind]
  cases r.run data with
  | error e => simp [Bind.bind,Except.bind]
  | ok out =>
    obtain ⟨a,mid⟩ := out
    constructor
    · exact fun h => ⟨a,mid,rfl,h⟩
    · rintro ⟨_,_,⟨⟩,h⟩
      exact h

lemma run_pure_eq_ok :
    (Pure.pure a : Reader β ε α).run data = .ok (b,rest) ↔ a = b ∧ data = rest := by
  change Except.ok (a,data) = Except.ok (b,rest) ↔ _
  simp

lemma run_vector_eq_ok :
    (vector n e).run data = .ok (v,rest) ↔ data = v.toList ++ rest := by
  constructor
  · intro h
    unfold StateT.run vector at h
    split_ifs at h
    cases h
    exact (take_append_drop n data).symm
  · rintro rfl
    exact Reads.vector e v rest

lemma run_symbol_eq_ok : (symbol e).run data = .ok (b,rest) ↔ data = b::rest := by
  cases data with
  | nil =>
    refine iff_of_false ?_ (cons_ne_nil _ _).symm
    rintro ⟨⟩
  | cons d data =>
    change Except.ok (d,data) = Except.ok (b,rest) ↔ _
    simp

lemma run_lift_eq_ok :
    (lift x).run data = .ok (a,rest) ↔ x = .ok a ∧ data = rest := by
  cases x with
  | error e => simp [lift,StateT.run,Except.map]
  | ok b => simp [lift,StateT.run,Except.map]

lemma run_times_eq_ok {write : α → List β} {P : α → Prop}
    (h : ∀ data a rest, r.run data = .ok (a,rest) ↔ P a ∧ data = write a ++ rest)
    : (times r n).run data = .ok (as,rest) ↔
      as.length = n ∧ (∀ a ∈ as, P a) ∧ data = as.flatMap write ++ rest := by
  induction n generalizing as data rest with
  | zero =>
    rw [times,run_pure_eq_ok,length_eq_zero_iff]
    constructor
    · rintro ⟨rfl,rfl⟩
      exact ⟨rfl,forall_mem_nil _,rfl⟩
    · rintro ⟨rfl,-,rfl⟩
      exact ⟨rfl,rfl⟩
  | succ n ih =>
    simp only [times,run_bind_eq_ok,h,ih,run_pure_eq_ok]
    constructor
    · rintro ⟨a,_,⟨ha,rfl⟩,as,_,⟨hlen,has,rfl⟩,rfl,rfl⟩
      exact ⟨by rw [length_cons,hlen],forall_mem_cons.mpr ⟨ha,has⟩,
        by rw [flatMap_cons,append_assoc]⟩
    · rintro ⟨hlen,has,rfl⟩
      obtain ⟨a,as,rfl⟩ := exists_cons_of_length_eq_add_one hlen
      obtain ⟨ha,has⟩ := forall_mem_cons.mp has
      exact ⟨a,as.flatMap write ++ rest,⟨ha,by rw [flatMap_cons,append_assoc]⟩,as,rest,
        ⟨Nat.succ.inj hlen,has,rfl⟩,rfl,rfl⟩

lemma run_get_eq_ok :
    (get : Reader β ε (List β)).run data = .ok (input,rest) ↔ data = input ∧ data = rest := by
  change Except.ok (data,data) = Except.ok (input,rest) ↔ _
  simp

lemma map_fst_eq_ok : (r.run data).map Prod.fst = .ok a ↔ ∃ rest, r.run data = .ok (a,rest) := by
  cases r.run data with
  | error e => simp [Except.map]
  | ok out =>
    obtain ⟨b,rest⟩ := out
    simp [Except.map]

lemma Stable.pure (a : α) : Stable (pure a : Reader β ε α) := by
  intro data rest b h tail
  cases h
  rfl

lemma Stable.bind (h : Stable r) (hf : ∀ a, Stable (f a)) : Stable (r >>= f) := by
  intro data rest c hrun tail
  rw [StateT.run_bind] at hrun ⊢
  cases hr : r.run data with
  | error e => rw [hr] at hrun; cases hrun
  | ok out =>
    obtain ⟨a,mid⟩ := out
    rw [hr] at hrun
    rw [h _ _ _ hr tail]
    exact hf a _ _ _ hrun tail

lemma Stable.symbol (e : ε) : Stable (symbol e : Reader β ε β) := by
  intro data rest b h tail
  cases data with
  | nil => cases h
  | cons d data => cases h; rfl

lemma Stable.vector (n : ℕ) (e : ε) : Stable (Reader.vector n e : Reader β ε _) := by
  intro data rest v h tail
  unfold StateT.run Reader.vector at h ⊢
  split_ifs at h with hlen
  cases h
  rw [dif_pos (by rw [length_append]; omega)]
  congr 2
  · apply List.Vector.eq
    exact take_append_of_le_length hlen
  · exact drop_append_of_le_length hlen

lemma Stable.lift (x : Except ε α) : Stable (lift x : Reader β ε α) := by
  intro data rest a h tail
  obtain ⟨hx,rfl⟩ := run_lift_eq_ok.mp h
  exact run_lift_eq_ok.mpr ⟨hx,rfl⟩

lemma Stable.times (h : Stable r) (n : ℕ) : Stable (times r n) := by
  induction n with
  | zero => exact .pure []
  | succ n ih => exact h.bind fun _ => ih.bind fun _ => .pure _

lemma Stable.fails_on_part (hs : Stable r) {part tail : List β} (h : Reads r (part ++ tail) a)
    (htail : tail ≠ []) : ∃ e, r.run part = .error e := by
  cases hr : r.run part with
  | error e => exact ⟨e,rfl⟩
  | ok out =>
    have hlong := (hs _ _ _ hr tail).symm.trans (by simpa using h [])
    simp only [Except.ok.injEq,Prod.mk.injEq,append_eq_nil_iff] at hlong
    exact absurd hlong.2.2 htail

end Reader
end SmoFramework.Library
