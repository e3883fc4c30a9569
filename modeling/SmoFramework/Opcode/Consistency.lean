import SmoFramework.Opcode.Registry
import Mathlib.Data.List.Infix

/-! The three indexes of the opcode registry against each other, over any sequence of plugin
registrations after construction. -/
namespace SmoFramework
namespace OpcodeRegistry
open SmoFramework.Library AssocMap

variable (entries : List OpcodeEntry)

def registerPlugins : OpcodeRegistry :=
  entries.foldl (fun reg entry => (reg.registerPluginOpcode entry).2) initial

lemma registerPlugins_concat (before : List OpcodeEntry) (entry : OpcodeEntry) :
    registerPlugins (before ++ [entry]) =
      ((registerPlugins before).registerPluginOpcode entry).2 := by
  unfold registerPlugins
  rw [List.foldl_concat]

/-- Two registries that no lookup tells apart. -/
structure SameAnswers (reg reg' : OpcodeRegistry) : Prop where
  code : ∀ code, reg'.resolve code = reg.resolve code
  name : ∀ name, reg'.resolveByName name = reg.resolveByName name
  wire : ∀ ns messageId, reg'.resolveByWire ns messageId = reg.resolveByWire ns messageId

variable (reg : OpcodeRegistry)

/-- A resolved entry with a wire pair is also what its pair and its name resolve to. -/
def Consistent : Prop :=
  ∀ code entry, reg.resolve code = .ok entry → entry.ns ≠ 0 → entry.messageId ≠ 0 →
    reg.resolveByWire entry.ns entry.messageId = .ok entry ∧
      reg.resolveByName entry.name = some (.ok entry)

/-- The entry passes the checks on its code and its name, and its wire pair is taken. -/
structure Clashes (reg : OpcodeRegistry) (entry : OpcodeEntry) : Prop where
  range : 0xFB ≤ entry.id.val ∧ entry.id.val ≤ 0xFE
  code : reg.byCode.contains entry.id = false
  name : reg.byName.contains entry.name = false
  pair : entry.ns ≠ 0 ∧ entry.messageId ≠ 0
  wire : reg.byWire.contains (wireKey entry.ns entry.messageId) = true

/-! One registration. -/

/-- Untouched with an error, or with the entry under its code, its name and, if it has one, its wire
pair. -/
inductive Registered (reg : OpcodeRegistry) (entry : OpcodeEntry) :
    Result Unit × OpcodeRegistry → Prop
  | refused (err : Error) : Registered reg entry (.error err,reg)
  | entered (reg' : OpcodeRegistry)
      (codeFree : reg.byCode.contains entry.id = false)
      (nameFree : reg.byName.contains entry.name = false)
      (code : reg'.byCode = reg.byCode.insert entry.id entry)
      (name : reg'.byName = reg.byName.insert entry.name entry.id)
      (wire : entry.ns ≠ 0 ∧ entry.messageId ≠ 0 ∧
          reg.byWire.contains (wireKey entry.ns entry.messageId) = false ∧
          reg'.byWire = reg.byWire.insert (wireKey entry.ns entry.messageId) entry ∨
        ¬ (entry.ns ≠ 0 ∧ entry.messageId ≠ 0) ∧ reg'.byWire = reg.byWire) :
      Registered reg entry (.ok (),reg')

lemma registerPluginOpcode_cases (entry : OpcodeEntry)
    (hclash : ¬ Clashes reg entry) : Registered reg entry (reg.registerPluginOpcode entry) := by
  unfold registerPluginOpcode
  dsimp only
  split_ifs with hrange hcode hname hpair hwire
  · exact .refused _
  · exact .refused _
  · exact .refused _
  · -- The wire map is the one before the call, so this is the clash.
    rw [not_or,UInt8.not_lt,UInt8.not_lt] at hrange
    exact absurd ⟨hrange,Bool.eq_false_iff.mpr hcode,Bool.eq_false_iff.mpr hname,hpair,hwire⟩ hclash
  · refine .entered _ (Bool.eq_false_iff.mpr hcode) (Bool.eq_false_iff.mpr hname) ?_ ?_
      (Or.inl ⟨hpair.1,hpair.2,Bool.eq_false_iff.mpr hwire,?_⟩)
    · rw [(advanceMsgId_tables _ _ _).1]
    · rw [(advanceMsgId_tables _ _ _).2.1]
    · rw [(advanceMsgId_tables _ _ _).2.2]
  · exact .entered _ (Bool.eq_false_iff.mpr hcode) (Bool.eq_false_iff.mpr hname) rfl rfl
      (Or.inr ⟨hpair,rfl⟩)

variable {reg}

lemma Clashes.registers {entry : OpcodeEntry} (h : Clashes reg entry) :
    ∃ err, (reg.registerPluginOpcode entry).1 = .error err ∧
      (reg.registerPluginOpcode entry).2.resolve entry.id = .ok entry := by
  have hrange : ¬ (entry.id.val < 0xFB ∨ entry.id.val > 0xFE) := by
    rw [not_or]
    exact ⟨UInt8.not_lt.mpr h.range.1,UInt8.not_lt.mpr h.range.2⟩
  unfold registerPluginOpcode
  rw [if_neg hrange,h.code,h.name]
  dsimp only
  rw [if_neg Bool.false_ne_true,if_neg Bool.false_ne_true,if_pos h.pair,if_pos h.wire]
  refine ⟨_,rfl,?_⟩
  unfold resolve
  rw [find_insert,if_pos rfl]

/-! The invariant. -/

/-- Every entry stands under its own code, its name leads back to that code, and its wire pair,
if it has one, leads to the entry. -/
structure Indexed (reg : OpcodeRegistry) : Prop where
  id : ∀ code entry, reg.byCode.find code = some entry → entry.id = code
  name : ∀ code entry, reg.byCode.find code = some entry → reg.byName.find entry.name = some code
  wire : ∀ code entry, reg.byCode.find code = some entry → entry.ns ≠ 0 → entry.messageId ≠ 0 →
    reg.byWire.find (wireKey entry.ns entry.messageId) = some entry

lemma initial_indexed : Indexed initial := by
  have hall : ∀ e ∈ initial.byCode.entries, e.2.id = e.1 ∧
      initial.byName.find e.2.name = some e.1 ∧
      (e.2.ns ≠ 0 → e.2.messageId ≠ 0 →
        initial.byWire.find (wireKey e.2.ns e.2.messageId) = some e.2) := by decide +kernel
  refine ⟨?_,?_,?_⟩
  · intro code entry h
    exact (hall _ (mem_entries_of_find h)).1
  · intro code entry h
    exact (hall _ (mem_entries_of_find h)).2.1
  · intro code entry h
    exact (hall _ (mem_entries_of_find h)).2.2

lemma ne_of_contains_false {κ ν : Type} [DecidableEq κ] {m : AssocMap κ ν} {k k' : κ} {v : ν}
    (hfree : m.contains k = false) (hfind : m.find k' = some v) : k' ≠ k := by
  intro h
  rw [contains,← h,hfind] at hfree
  cases hfree

lemma Registered.indexed {reg : OpcodeRegistry} {entry : OpcodeEntry}
    {out : Result Unit × OpcodeRegistry} (hout : Registered reg entry out) (h : Indexed reg) :
    Indexed out.2 := by
  cases hout with
  | refused err => exact h
  | entered reg' codeFree nameFree code name wire =>
    refine ⟨?_,?_,?_⟩
    · intro c e hfind
      rw [code,find_insert] at hfind
      split_ifs at hfind with hc
      · rw [← Option.some.inj hfind,hc]
      · exact h.id c e hfind
    · intro c e hfind
      rw [code,find_insert] at hfind
      rw [name,find_insert]
      split_ifs at hfind with hc
      · rw [← Option.some.inj hfind,if_pos rfl,hc]
      · have hname := h.name c e hfind
        rw [if_neg (ne_of_contains_false nameFree hname),hname]
    · intro c e hfind hns hmid
      rw [code,find_insert] at hfind
      split_ifs at hfind with hc
      · obtain rfl := Option.some.inj hfind
        rcases wire with ⟨-,-,-,hwire⟩ | ⟨hpair,-⟩
        · rw [hwire,find_insert,if_pos rfl]
        · exact absurd ⟨hns,hmid⟩ hpair
      · have hold := h.wire c e hfind hns hmid
        rcases wire with ⟨-,-,wireFree,hwire⟩ | ⟨-,hwire⟩
        · rw [hwire,find_insert,if_neg (ne_of_contains_false wireFree hold),hold]
        · rw [hwire,hold]

lemma Indexed.consistent (h : Indexed reg) : Consistent reg := by
  intro code entry hres hns hmid
  have hfind : reg.byCode.find code = some entry := by
    unfold resolve at hres
    split at hres
    · cases hres
    · rename_i e he
      rw [he,Except.ok.inj hres]
  constructor
  · unfold resolveByWire
    rw [h.wire code entry hfind hns hmid]
  · unfold resolveByName
    rw [h.name code entry hfind]
    simp [hfind]

/-! Sequences of registrations. -/

/-- No call of the sequence meets a registry it clashes with. -/
def NoClash : Prop :=
  ∀ before entry, before ++ [entry] <+: entries → ¬ Clashes (registerPlugins before) entry

lemma registerPlugins_indexed (h : NoClash entries) :
    Indexed (registerPlugins entries) := by
  induction entries using List.reverseRecOn with
  | nil =>
    rw [registerPlugins,List.foldl_nil]
    exact initial_indexed
  | append_singleton before entry ih =>
    have hbefore : NoClash before := by
      intro before' entry' hpre
      exact h before' entry' (hpre.trans (List.prefix_append _ _))
    rw [registerPlugins_concat]
    exact (registerPluginOpcode_cases _ entry (h before entry List.prefix_rfl)).indexed
      (ih hbefore)

/-- Over any sequence of plugin registrations, rejected calls leave every lookup as it was and
the indexes agree in every registry reached exactly if no call gets past the checks on code and
name with a wire pair that is taken. -/
theorem plugin_registrations_consistent_iff (entries : List OpcodeEntry) :
    ((∀ before entry, before ++ [entry] <+: entries →
        ∀ err, ((registerPlugins before).registerPluginOpcode entry).1 = .error err →
          SameAnswers (registerPlugins before) (registerPlugins (before ++ [entry]))) ∧
      ∀ before, before <+: entries → Consistent (registerPlugins before)) ↔
    NoClash entries := by
  constructor
  · rintro ⟨hsame,-⟩ before entry hpre hclash
    obtain ⟨err,herr,hres⟩ := hclash.registers
    have hcode := (hsame before entry hpre err herr).code entry.id
    rw [registerPlugins_concat,hres] at hcode
    have hnone : (registerPlugins before).byCode.find entry.id = none :=
      Option.isSome_eq_false_iff.mp hclash.code |> Option.isNone_iff_eq_none.mp
    unfold resolve at hcode
    rw [hnone] at hcode
    cases hcode
  · intro hno
    refine ⟨?_,?_⟩
    · intro before entry hpre err herr
      rw [registerPlugins_concat]
      have hcases := registerPluginOpcode_cases _ entry (hno before entry hpre)
      generalize (registerPlugins before).registerPluginOpcode entry = out at herr hcases
      cases hcases with
      | refused err' => exact ⟨fun _ => rfl,fun _ => rfl,fun _ _ => rfl⟩
      | entered reg' codeFree nameFree code name wire => cases herr
    · intro before hpre
      apply Indexed.consistent
      apply registerPlugins_indexed
      intro before' entry hpre'
      exact hno before' entry (hpre'.trans hpre)

def shadowLs : OpcodeEntry where
  id := ⟨0xFB⟩
  name := "shadow_ls"
  ns := kNamespaceDiscovery
  messageId := 0x0101

/-- The call is refused, and yet the code and the name resolve to the entry from then on. -/
theorem rejected_plugin_stays_registered : (initial.registerPluginOpcode shadowLs).1 =
      .error (smoErrCrypto 8 .error .noRetry .none "duplicate wire opcode (ns, message_id)") ∧
    initial.resolve shadowLs.id =
      .error (smoErrCrypto 8 .error .noRetry .none "unknown opcode") ∧
    (registerPlugins [shadowLs]).resolve shadowLs.id = .ok shadowLs ∧
    (registerPlugins [shadowLs]).resolveByName "shadow_ls" = some (.ok shadowLs) ∧
    ((registerPlugins [shadowLs]).resolveByWire kNamespaceDiscovery 0x0101).map OpcodeEntry.id =
      .ok Opcode.LS := by
  decide +kernel

end OpcodeRegistry
end SmoFramework
