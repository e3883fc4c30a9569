import Mathlib.Data.List.Infix
import Mathlib.Data.List.TakeWhile

/-! Forward search in a text. A position is the text from that position on, so a search answers
with a suffix of what it was given, or with `none` when nothing is found. -/
namespace SmoFramework.Library.TextSearch
open List

variable {α : Type*} {key : List α} {c : α} {p : α → Bool}

/-! Where a word can occur. -/

variable {a b : List α}

lemma prefix_append_cons (hc : c ∉ key) (h : key <+: a ++ c::b) : key <+: a := by
  induction a generalizing key with
  | nil =>
    cases key with
    | nil => exact nil_prefix
    | cons k key =>
      have hk : k = c := (cons_prefix_cons.mp h).1
      exact absurd (hk ▸ mem_cons_self) hc
  | cons x a ih =>
    cases key with
    | nil => exact nil_prefix
    | cons k key =>
      obtain ⟨rfl,h'⟩ := cons_prefix_cons.mp h
      exact cons_prefix_cons.mpr ⟨rfl,ih (fun hm => hc (mem_cons_of_mem _ hm)) h'⟩

lemma infix_append_cons (hc : c ∉ key) :
    key <:+: a ++ c::b ↔ key <:+: a ∨ key <:+: b := by
  constructor
  · intro h
    induction a with
    | nil =>
      rcases infix_cons_iff.mp h with h | h
      · have hnil := prefix_append_cons (a := []) hc h
        exact Or.inl hnil.isInfix
      · exact Or.inr h
    | cons x a ih =>
      rcases infix_cons_iff.mp h with h | h
      · exact Or.inl (prefix_append_cons (a := x::a) hc h).isInfix
      · exact (ih h).imp_left infix_cons
  · rintro (h | h)
    · exact h.trans (prefix_append _ _).isInfix
    · exact h.trans ((suffix_cons _ _).trans (suffix_append _ _)).isInfix

lemma not_infix_of_mem {l : List α} (hk : c ∈ key) (hl : c ∉ l) : ¬key <:+: l :=
  fun h => hl (h.subset hk)

/-! Searching for a symbol of a class. -/

def findFirst (p : α → Bool) : List α → Option (List α)
  | [] => none
  | c::cs => if p c then some (c::cs) else findFirst p cs

lemma findFirst_append_cons (ha : ∀ x ∈ a, p x = false) (hc : p c = true) :
    findFirst p (a ++ c::b) = some (c::b) := by
  induction a with
  | nil => simp [findFirst,hc]
  | cons x a ih =>
    rw [cons_append,findFirst,if_neg (by simp [ha x mem_cons_self])]
    exact ih (fun y hy => ha y (mem_cons_of_mem _ hy))

/-- The search stops at a symbol of the class, or earlier. -/
lemma findFirst_stops (hc : p c = true) (a b : List α) :
    ∃ x, x <:+ a ∧ findFirst p (a ++ c::b) = some (x ++ c::b) := by
  induction a with
  | nil => exact ⟨[],suffix_rfl,by simp [findFirst,hc]⟩
  | cons y a ih =>
    by_cases hy : p y = true
    · exact ⟨y::a,suffix_rfl,by simp [findFirst,hy]⟩
    · obtain ⟨x,hx,hfind⟩ := ih
      exact ⟨x,hx.trans (suffix_cons _ _),by simp [findFirst,hy,hfind]⟩

lemma takeWhile_append_cons (hc : p c = false) :
    (a ++ c::b).takeWhile p = a.takeWhile p := by
  induction a with
  | nil => simp [hc]
  | cons x a ih => simp [takeWhile_cons,ih]

/-! Searching for a word. -/

variable [DecidableEq α]

def find (key : List α) : List α → Option (List α)
  | [] => if key = [] then some [] else none
  | c::cs => if key <+: c::cs then some (c::cs) else find key cs

/-- The search passes over a front part without the word, up to a symbol the word avoids. -/
lemma find_append_cons (hc : c ∉ key) (ha : ¬key <:+: a) :
    find key (a ++ c::b) = find key b := by
  induction a with
  | nil =>
    have hno : ¬key <+: c::b := fun h => ha (prefix_append_cons (a := []) hc h).isInfix
    simp [find,hno]
  | cons x a ih =>
    have hno : ¬key <+: x::(a ++ c::b) := fun h =>
      ha (prefix_append_cons (a := x::a) hc h).isInfix
    rw [cons_append,find,if_neg hno]
    exact ih (fun h => ha (infix_cons h))

lemma find_append_self (key b : List α) : find key (key ++ b) = some (key ++ b) := by
  cases h : key ++ b with
  | nil => simp_all [find]
  | cons x l =>
    rw [find,if_pos]
    exact h ▸ prefix_append _ _

lemma find_stops (key a b : List α) :
    ∃ x, x <:+ a ∧ find key (a ++ (key ++ b)) = some (x ++ (key ++ b)) := by
  induction a with
  | nil => exact ⟨[],suffix_rfl,find_append_self key b⟩
  | cons y a ih =>
    by_cases hy : key <+: y::(a ++ (key ++ b))
    · exact ⟨y::a,suffix_rfl,by simp [find,hy]⟩
    · obtain ⟨x,hx,hfind⟩ := ih
      exact ⟨x,hx.trans (suffix_cons _ _),by simp [find,hy,hfind]⟩

end SmoFramework.Library.TextSearch
