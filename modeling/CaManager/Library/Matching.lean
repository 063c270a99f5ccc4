import Mathlib.Data.List.Induction
import Mathlib.Data.List.Nodup
import Mathlib.Data.List.Perm.Subperm
import Mathlib.Data.Nat.Notation

/-!
# Greedy matching

Each key in turn is given the first target that it fits and that no key before it got. Keys and
targets carry labels. Nothing is used twice, and no key that is left over fits a target that is
left over. Where fitting means having one colour, a target of a colour is left over exactly if the
targets of that colour outnumber its keys.
-/

namespace CaManager.Library

section Matching

variable {ι κ α β γ : Type*} [DecidableEq κ]

def matchInto (fits : α → β → Bool) (targets : List (κ × β)) (pairs : List (ι × κ))
    (key : ι × α) : List (ι × κ) :=
  match targets.find? fun t => t.1 ∉ pairs.map Prod.snd && fits key.2 t.2 with
  | some t => pairs ++ [(key.1, t.1)]
  | none => pairs

def matchUp (fits : α → β → Bool) (targets : List (κ × β)) (keys : List (ι × α)) :
    List (ι × κ) :=
  keys.foldl (matchInto fits targets) []

/-- Pairs that fit, use nothing twice and cannot be extended. -/
structure IsMatching (fits : α → β → Bool) (targets : List (κ × β)) (keys : List (ι × α))
    (pairs : List (ι × κ)) : Prop where
  sound : ∀ pair ∈ pairs, ∃ a b, (pair.1, a) ∈ keys ∧ (pair.2, b) ∈ targets ∧ fits a b = true
  keysOnce : (pairs.map Prod.fst).Nodup
  targetsOnce : (pairs.map Prod.snd).Nodup
  maximal : ∀ key ∈ keys, key.1 ∉ pairs.map Prod.fst →
    ∀ t ∈ targets, t.1 ∉ pairs.map Prod.snd → fits key.2 t.2 = false

variable {fits : α → β → Bool} {targets : List (κ × β)} {keys : List (ι × α)}
  {pairs : List (ι × κ)}

theorem matchInto_cases (fits : α → β → Bool) (targets : List (κ × β)) (pairs : List (ι × κ))
    (key : ι × α) :
    (∃ t ∈ targets, t.1 ∉ pairs.map Prod.snd ∧ fits key.2 t.2 = true ∧
      matchInto fits targets pairs key = pairs ++ [(key.1, t.1)]) ∨
    (∀ t ∈ targets, t.1 ∉ pairs.map Prod.snd → fits key.2 t.2 = false) ∧
      matchInto fits targets pairs key = pairs := by
  unfold matchInto
  cases hfound : targets.find? fun t => t.1 ∉ pairs.map Prod.snd && fits key.2 t.2 with
  | some t =>
    have hmem := List.mem_of_find?_eq_some hfound
    have hfits := List.find?_some hfound
    simp only [Bool.and_eq_true, decide_eq_true_eq] at hfits
    exact .inl ⟨t, hmem, hfits.1, hfits.2, rfl⟩
  | none =>
    refine .inr ⟨?_, rfl⟩
    intro t ht hfree
    have hnot := List.find?_eq_none.mp hfound t ht
    simpa [hfree] using hnot

theorem IsMatching.matchInto {key : ι × α} (h : IsMatching fits targets keys pairs)
    (hkey : key.1 ∉ keys.map Prod.fst) :
    IsMatching fits targets (keys ++ [key]) (matchInto fits targets pairs key) := by
  have hunused : key.1 ∉ pairs.map Prod.fst := by
    intro hmem
    obtain ⟨pair, hpair, heq⟩ := List.mem_map.mp hmem
    obtain ⟨a, b, ha, _⟩ := h.sound pair hpair
    exact hkey (List.mem_map.mpr ⟨_, ha, heq⟩)
  rcases matchInto_cases fits targets pairs key with ⟨t, ht, hfree, hfits, heq⟩ | ⟨hnone, heq⟩
  · rw [heq]
    constructor
    · intro pair hpair
      rcases List.mem_append.mp hpair with hpair | hpair
      · obtain ⟨a, b, ha, hb, hab⟩ := h.sound pair hpair
        exact ⟨a, b, List.mem_append_left _ ha, hb, hab⟩
      · rw [List.mem_singleton.mp hpair]
        exact ⟨key.2, t.2, by simp, ht, hfits⟩
    · rw [List.map_append, List.map_singleton, ← List.concat_eq_append]
      exact List.Nodup.concat hunused h.keysOnce
    · rw [List.map_append, List.map_singleton, ← List.concat_eq_append]
      exact List.Nodup.concat hfree h.targetsOnce
    · intro key' hkey' hleft t' ht' hleft'
      simp only [List.map_append, List.map_cons, List.map_nil, List.mem_append, not_or,
        List.mem_singleton] at hleft hleft'
      rcases List.mem_append.mp hkey' with hkey' | hkey'
      · exact h.maximal key' hkey' hleft.1 t' ht' hleft'.1
      · exact absurd (congrArg Prod.fst (List.mem_singleton.mp hkey')) hleft.2
  · rw [heq]
    refine ⟨?_, h.keysOnce, h.targetsOnce, ?_⟩
    · intro pair hpair
      obtain ⟨a, b, ha, hb, hab⟩ := h.sound pair hpair
      exact ⟨a, b, List.mem_append_left _ ha, hb, hab⟩
    · intro key' hkey' hleft t' ht' hleft'
      rcases List.mem_append.mp hkey' with hkey' | hkey'
      · exact h.maximal key' hkey' hleft t' ht' hleft'
      · rw [List.mem_singleton.mp hkey']
        exact hnone t' ht' hleft'

theorem isMatching_matchUp (hkeys : (keys.map Prod.fst).Nodup) :
    IsMatching fits targets keys (matchUp fits targets keys) := by
  induction keys using List.reverseRecOn with
  | nil => exact ⟨by simp [matchUp], by simp [matchUp], by simp [matchUp], by simp⟩
  | append_singleton keys key ih =>
    rw [List.map_append, List.map_singleton, List.nodup_append] at hkeys
    rw [matchUp, List.foldl_append]
    refine (ih hkeys.1).matchInto ?_
    exact fun hmem => hkeys.2.2 _ hmem _ (List.mem_singleton_self _) rfl

section Colours

def labelsOf (p : α → Bool) (l : List (ι × α)) : List ι := (l.filter fun x => p x.2).map Prod.fst

theorem length_labelsOf (p : α → Bool) (l : List (ι × α)) :
    (labelsOf p l).length = l.countP fun x => p x.2 := by
  rw [labelsOf, List.length_map, List.countP_eq_length_filter]

theorem nodup_labelsOf {p : α → Bool} {l : List (ι × α)} (h : (l.map Prod.fst).Nodup) :
    (labelsOf p l).Nodup :=
  h.sublist (List.filter_sublist.map _)

theorem mem_labelsOf {p : α → Bool} {l : List (ι × α)} (h : (l.map Prod.fst).Nodup) {i : ι} {a : α}
    (ha : (i, a) ∈ l) : i ∈ labelsOf p l ↔ p a = true := by
  constructor
  · intro hi
    obtain ⟨x, hx, heq⟩ := List.mem_map.mp hi
    obtain ⟨hx, hp⟩ := List.mem_filter.mp hx
    rwa [List.inj_on_of_nodup_map h hx ha heq] at hp
  · intro hp
    exact List.mem_map.mpr ⟨(i, a), List.mem_filter.mpr ⟨ha, hp⟩, rfl⟩

variable [DecidableEq γ] {colour : α → Option γ} {hue : β → γ}

def pairsOf (hue : β → γ) (targets : List (κ × β)) (pairs : List (ι × κ)) (c : γ) :
    List (ι × κ) :=
  pairs.filter fun pair => pair.2 ∈ labelsOf (fun b => hue b = c) targets

section Counting

variable (h : IsMatching (fun a b => colour a = some (hue b)) targets keys pairs)
  (hkeys : (keys.map Prod.fst).Nodup) (htargets : (targets.map Prod.fst).Nodup) (c : γ)

omit [DecidableEq κ] in
include h hkeys htargets in
theorem IsMatching.mem_labelsOf_iff {pair : ι × κ} (hpair : pair ∈ pairs) :
    pair.1 ∈ labelsOf (fun a => colour a = some c) keys ↔
      pair.2 ∈ labelsOf (fun b => hue b = c) targets := by
  obtain ⟨a, b, ha, hb, hab⟩ := h.sound pair hpair
  have hcolour : colour a = some (hue b) := of_decide_eq_true hab
  rw [mem_labelsOf hkeys ha, mem_labelsOf htargets hb, hcolour]
  simp

include h hkeys htargets in
theorem IsMatching.length_pairsOf_le : (pairsOf hue targets pairs c).length ≤
    (labelsOf (fun a => colour a = some c) keys).length := by
  have hsub : (pairsOf hue targets pairs c).map Prod.fst ⊆
      labelsOf (fun a => colour a = some c) keys := by
    intro i hi
    obtain ⟨pair, hpair, rfl⟩ := List.mem_map.mp hi
    obtain ⟨hpair, hcolour⟩ := List.mem_filter.mp hpair
    exact (h.mem_labelsOf_iff hkeys htargets c hpair).mpr (of_decide_eq_true hcolour)
  have honce : ((pairsOf hue targets pairs c).map Prod.fst).Nodup :=
    h.keysOnce.sublist (List.filter_sublist.map _)
  have hle := (List.subperm_of_subset honce hsub).length_le
  rwa [List.length_map] at hle

include h hkeys htargets in
theorem IsMatching.length_labelsOf_le {t : κ × β} (ht : t ∈ targets) (hc : hue t.2 = c)
    (hleft : t.1 ∉ pairs.map Prod.snd) :
    (labelsOf (fun a => colour a = some c) keys).length ≤ (pairsOf hue targets pairs c).length := by
  have hall : labelsOf (fun a => colour a = some c) keys ⊆
      (pairsOf hue targets pairs c).map Prod.fst := by
    intro i hi
    obtain ⟨key, hkey, rfl⟩ := List.mem_map.mp hi
    obtain ⟨hkey, hcolour⟩ := List.mem_filter.mp hkey
    have hused : key.1 ∈ pairs.map Prod.fst := by
      by_contra hunused
      have hfalse := h.maximal key hkey hunused t ht hleft
      rw [of_decide_eq_true hcolour, hc] at hfalse
      simp at hfalse
    obtain ⟨pair, hpair, heq⟩ := List.mem_map.mp hused
    rw [← heq] at hi
    have htarget := (h.mem_labelsOf_iff hkeys htargets c hpair).mp hi
    exact List.mem_map.mpr ⟨pair, List.mem_filter.mpr ⟨hpair, decide_eq_true htarget⟩, heq⟩
  have hle := (List.subperm_of_subset (nodup_labelsOf hkeys) hall).length_le
  rwa [List.length_map] at hle

include h htargets in
theorem IsMatching.exists_left_iff_pairsOf :
    (∃ t ∈ targets, hue t.2 = c ∧ t.1 ∉ pairs.map Prod.snd) ↔
      (pairsOf hue targets pairs c).length < (labelsOf (fun b => hue b = c) targets).length := by
  have honce : ((pairsOf hue targets pairs c).map Prod.snd).Nodup :=
    h.targetsOnce.sublist (List.filter_sublist.map _)
  have hsub : (pairsOf hue targets pairs c).map Prod.snd ⊆
      labelsOf (fun b => hue b = c) targets := by
    intro k hk
    obtain ⟨pair, hpair, rfl⟩ := List.mem_map.mp hk
    exact of_decide_eq_true (List.mem_filter.mp hpair).2
  constructor
  · rintro ⟨t, ht, hc, hleft⟩
    have hfresh : t.1 ∉ (pairsOf hue targets pairs c).map Prod.snd := fun hmem =>
      hleft ((List.filter_sublist.map Prod.snd).subset hmem)
    have hmem : t.1 ∈ labelsOf (fun b => hue b = c) targets :=
      (mem_labelsOf htargets ht).mpr (decide_eq_true hc)
    have hle := (List.subperm_of_subset (List.nodup_cons.mpr ⟨hfresh, honce⟩)
      (List.cons_subset.mpr ⟨hmem, hsub⟩)).length_le
    rw [List.length_cons, List.length_map] at hle
    omega
  · intro hlt
    by_contra hnone
    push Not at hnone
    have hall : labelsOf (fun b => hue b = c) targets ⊆
        (pairsOf hue targets pairs c).map Prod.snd := by
      intro k hk
      obtain ⟨t, ht, rfl⟩ := List.mem_map.mp hk
      obtain ⟨ht, hc⟩ := List.mem_filter.mp ht
      obtain ⟨pair, hpair, heq⟩ := List.mem_map.mp (hnone t ht (of_decide_eq_true hc))
      refine List.mem_map.mpr ⟨pair, List.mem_filter.mpr ⟨hpair, ?_⟩, heq⟩
      exact decide_eq_true (heq ▸ hk)
    have hle := (List.subperm_of_subset (nodup_labelsOf htargets) hall).length_le
    rw [List.length_map] at hle
    omega

end Counting

/-- Where fitting means having one colour, a target is left over exactly if there are fewer keys of
its colour than targets. -/
theorem IsMatching.exists_left_iff
    (h : IsMatching (fun a b => colour a = some (hue b)) targets keys pairs)
    (hkeys : (keys.map Prod.fst).Nodup) (htargets : (targets.map Prod.fst).Nodup) (c : γ) :
    (∃ t ∈ targets, hue t.2 = c ∧ t.1 ∉ pairs.map Prod.snd) ↔
      keys.countP (fun key => colour key.2 = some c) < targets.countP (fun t => hue t.2 = c) := by
  have hks := length_labelsOf (fun a => decide (colour a = some c)) keys
  have hts := length_labelsOf (fun b => decide (hue b = c)) targets
  have hle := h.length_pairsOf_le hkeys htargets c
  rw [← hks, ← hts]
  constructor
  · intro hleft
    have hlt := (h.exists_left_iff_pairsOf htargets c).mp hleft
    obtain ⟨t, ht, hc, hfree⟩ := hleft
    have hall := h.length_labelsOf_le hkeys htargets c ht hc hfree
    omega
  · intro hlt
    apply (h.exists_left_iff_pairsOf htargets c).mpr
    omega

end Colours

end Matching

end CaManager.Library
