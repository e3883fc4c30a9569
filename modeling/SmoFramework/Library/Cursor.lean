import Mathlib.Data.List.Basic

/-! Programs that move a position over a fixed input, which they may look at anywhere. A program
*decodes* a word if, wherever the word stands in the input, it returns the word's value and stops
behind it. Decoding composes along a program's steps as words are concatenated. -/
namespace SmoFramework.Library
open List

abbrev Cursor (ε α : Type) := StateT ℕ (Except ε) α

namespace Cursor
variable {β ε α γ : Type}

def Holds (data : List β) (p : ℕ) (word : List β) : Prop :=
  ∃ pre rest, data = pre ++ (word ++ rest) ∧ pre.length = p

def Decodes (data : List β) (r : Cursor ε α) (word : List β) (a : α) : Prop :=
  ∀ p, Holds data p word → r.run p = .ok (a,p+word.length)

variable {data word word' : List β} {p : ℕ}

lemma Holds.left (h : Holds data p (word ++ word')) : Holds data p word := by
  obtain ⟨pre,rest,hdata,hpre⟩ := h
  exact ⟨pre,word' ++ rest,by rw [hdata,append_assoc],hpre⟩

lemma Holds.right (h : Holds data p (word ++ word')) : Holds data (p+word.length) word' := by
  obtain ⟨pre,rest,hdata,hpre⟩ := h
  exact ⟨pre ++ word,rest,by simp [hdata],by rw [length_append,hpre]⟩

lemma Holds.le (h : Holds data p word) : p+word.length ≤ data.length := by
  obtain ⟨pre,rest,rfl,rfl⟩ := h
  simp only [length_append]
  omega

lemma Holds.take (h : Holds data p word) : (data.drop p).take word.length = word := by
  obtain ⟨pre,rest,rfl,rfl⟩ := h
  rw [drop_left,take_left]

lemma Holds.getD {i : ℕ} (h : Holds data p word) (hi : i < word.length) (default : β) :
    data.getD (p+i) default = word.getD i default := by
  obtain ⟨pre,rest,rfl,rfl⟩ := h
  rw [getD_eq_getElem?_getD,getElem?_append_right (Nat.le_add_right _ _),
    Nat.add_sub_cancel_left,getElem?_append_left hi,getD_eq_getElem?_getD]

lemma Holds.start (word rest : List β) : Holds (word ++ rest) 0 word := ⟨[],rest,rfl,rfl⟩

variable {r : Cursor ε α} {f : α → Cursor ε γ} {a : α} {c : γ}

lemma Decodes.pure (a : α) : Decodes data (pure a : Cursor ε α) [] a := fun _ _ => rfl

lemma Decodes.bind (h : Decodes data r word a) (h' : Decodes data (f a) word' c) :
    Decodes data (r >>= f) (word ++ word') c := by
  intro p hp
  rw [StateT.run_bind,h p hp.left]
  change (f a).run (p+word.length) = _
  rw [h' _ hp.right,length_append,Nat.add_assoc]

lemma Decodes.bind_nil (h : Decodes data r word a) (h' : Decodes data (f a) [] c) :
    Decodes data (r >>= f) word c := by
  rw [← append_nil word]
  exact h.bind h'

lemma Decodes.bind_pure {g : α → γ} (h : Decodes data r word a) :
    Decodes data (r >>= fun a => Pure.pure (g a)) word (g a) := h.bind_nil (.pure (g a))

lemma Decodes.look {f : ℕ → Cursor ε γ}
    (h : ∀ p, Holds data p word → (f p).run p = .ok (c,p+word.length)) :
    Decodes data (get >>= f) word c := h

variable {x : Cursor ε α}

/-- The position never lies behind the input. -/
lemma Decodes.inside (h : Decodes data r word a) :
    Decodes data (get >>= fun off => if off > data.length then x else r) word a :=
  .look fun p hp => by
    have hle := hp.le
    rw [if_neg (by omega)]
    exact h p hp

/-- Where a word begins, the input has not ended. -/
lemma Decodes.before_end (hne : word ≠ []) (h : Decodes data r word a) :
    Decodes data (get >>= fun off => if off ≥ data.length then x else r) word a :=
  .look fun p hp => by
    have hle := hp.le
    have hpos := length_pos_iff.mpr hne
    rw [if_neg (by omega)]
    exact h p hp

def times (r : Cursor ε Unit) : ℕ → Cursor ε Unit
  | 0 => Pure.pure ()
  | n+1 => do r; times r n

lemma Decodes.times {ι : Type*} {r : Cursor ε Unit} {write : ι → List β} {xs : List ι}
    (h : ∀ x ∈ xs, Decodes data r (write x) ()) :
    Decodes data (times r xs.length) (xs.flatMap write) () := by
  induction xs with
  | nil => exact .pure ()
  | cons x xs ih =>
    rw [flatMap_cons]
    exact (h x (mem_cons_self ..)).bind (ih fun x' hx' => h x' (mem_cons_of_mem _ hx'))

def collect (r : Cursor ε α) : ℕ → Cursor ε (List α)
  | 0 => Pure.pure []
  | n+1 => do
    let a ← r
    let as ← collect r n
    Pure.pure (a::as)

lemma Decodes.collect {ι : Type*} {write : ι → List β} {value : ι → α} {xs : List ι}
    (h : ∀ x ∈ xs, Decodes data r (write x) (value x)) :
    Decodes data (collect r xs.length) (xs.flatMap write) (xs.map value) := by
  induction xs with
  | nil => exact .pure []
  | cons x xs ih =>
    obtain ⟨hx,hxs⟩ := forall_mem_cons.mp h
    rw [flatMap_cons]
    exact hx.bind (ih hxs).bind_pure

end Cursor
end SmoFramework.Library
