import Mathlib.Data.List.Basic

/-! Parsers that draw tokens from a source with a state of its own, such as a lexer with a token of
lookahead. The relation `holds` says which tokens the source still has to deliver, and with it a
parser is described by what it does to a list of tokens. -/
namespace SmoFramework.Library

variable {σ τ α β : Type} {holds : σ → List τ → Prop}

/-- On a source of `toks` the parser answers `a` and leaves a source of `rest`. -/
def Parses (holds : σ → List τ → Prop) (p : StateT σ Option α) (toks : List τ) (a : α)
    (rest : List τ) : Prop :=
  ∀ s, holds s toks → ∃ s', p s = some (a,s') ∧ holds s' rest

namespace Parses
variable {p : StateT σ Option α} {f : α → StateT σ Option β} {toks mid rest : List τ} {a : α} {b : β}

lemma pure (a : α) (toks : List τ) : Parses holds (pure a) toks a toks :=
  fun s hs => ⟨s,rfl,hs⟩

lemma bind (h : Parses holds p toks a mid) (hf : Parses holds (f a) mid b rest) :
    Parses holds (p >>= f) toks b rest := by
  intro s hs
  obtain ⟨s₁,hp,h₁⟩ := h s hs
  obtain ⟨s₂,hb,h₂⟩ := hf s₁ h₁
  refine ⟨s₂,?_,h₂⟩
  change (p s >>= fun r => f r.1 r.2) = _
  rw [hp]
  exact hb

lemma map {g : α → β} (h : Parses holds p toks a rest) :
    Parses holds (p >>= fun a => Pure.pure (g a)) toks (g a) rest := h.bind (.pure (g a) rest)

lemma ite {q : StateT σ Option α} {c : Prop} [Decidable c] (hp : c → Parses holds p toks a rest)
    (hq : ¬ c → Parses holds q toks a rest) : Parses holds (if c then p else q) toks a rest := by
  split_ifs with hc
  · exact hp hc
  · exact hq hc

lemma answer {s : σ} (h : Parses holds p toks a rest) (hs : holds s toks) :
    (p s).map Prod.fst = some a := by
  obtain ⟨s',hp,_⟩ := h s hs
  rw [hp]
  rfl

end Parses
end SmoFramework.Library
