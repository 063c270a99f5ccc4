import Mathlib.Data.List.Basic
import Mathlib.Order.Basic

/-!
# Hash chains

A link holds a body, the hash of the link before it and its own hash. Either hash may be
missing. Checking goes through the links in order, skips a link without a hash and starts
afresh after it. Links that are appended pass; removing links passes as long as what a
remaining link was chained to still comes before it. When sealing binds its arguments, the
last hash commits to every link of the chain.
-/

namespace CaManager.Library

structure Link (β H : Type*) where
  body : β
  prev : Option H
  hash : Option H

namespace Link

variable {β H ι : Type*} (genesis : H) (sealed : β → Option H → H)

def outHash (l : Link β H) : H := l.hash.getD genesis

def Passes : H → List (Link β H) → Prop
  | _, [] => True
  | prev, l :: ls =>
    match l.hash with
    | none => Passes genesis ls
    | some hash => (∀ p ∈ l.prev, p = prev) ∧ sealed l.body l.prev = hash ∧ Passes hash ls

/-- Every hash is the seal of its link, and every hashed link names a hash before it. -/
def Sealed (l : Link β H) : Prop :=
  ∀ hash ∈ l.hash, sealed l.body l.prev = hash ∧ l.prev ≠ none

def lastHash : H → List (Link β H) → H
  | prev, [] => prev
  | _, l :: ls => lastHash (l.outHash genesis) ls

def Chained (prev : H) (ls : List (Link β H)) : Prop :=
  ∀ before l after, ls = before ++ l :: after → l.hash ≠ none →
    l.prev = some (lastHash genesis prev before)

section Chains

variable {genesis sealed} {prev : H} {l : Link β H} {ls ls' : List (Link β H)}

@[simp] theorem lastHash_nil : lastHash genesis prev ([] : List (Link β H)) = prev := rfl

@[simp] theorem lastHash_cons :
    lastHash genesis prev (l :: ls) = lastHash genesis (l.outHash genesis) ls := rfl

theorem chained_nil : Chained genesis prev ([] : List (Link β H)) := by
  intro before l after h
  simp at h

theorem chained_cons : Chained genesis prev (l :: ls) ↔
    (l.hash ≠ none → l.prev = some prev) ∧ Chained genesis (l.outHash genesis) ls := by
  constructor
  · intro h
    refine ⟨h [] l ls rfl, fun before l' after heq => ?_⟩
    exact h (l :: before) l' after (by rw [heq, List.cons_append])
  · rintro ⟨hl, hls⟩ before l' after heq
    cases before with
    | nil =>
      obtain ⟨rfl, _⟩ := List.cons.inj heq
      exact hl
    | cons l₀ before =>
      obtain ⟨rfl, hrest⟩ := List.cons.inj heq
      exact hls before l' after hrest

theorem chained_append : Chained genesis prev (ls ++ ls') ↔
    Chained genesis prev ls ∧ Chained genesis (lastHash genesis prev ls) ls' := by
  induction ls generalizing prev with
  | nil => exact (and_iff_right chained_nil).symm
  | cons l ls ih => rw [List.cons_append, chained_cons, chained_cons, ih, and_assoc, lastHash_cons]

theorem passes_iff_chained (h : ∀ l ∈ ls, Sealed sealed l) :
    Passes genesis sealed prev ls ↔ Chained genesis prev ls := by
  induction ls generalizing prev with
  | nil => exact iff_of_true trivial chained_nil
  | cons l ls ih =>
    have hrest : ∀ l' ∈ ls, Sealed sealed l' := fun l' hl' => h l' (List.mem_cons_of_mem l hl')
    rw [chained_cons]
    cases hhash : l.hash with
    | none =>
      have hout : l.outHash genesis = genesis := by simp [outHash, hhash]
      simp only [Passes, hhash, hout]
      rw [ih hrest]
      simp
    | some hash =>
      have hout : l.outHash genesis = hash := by simp [outHash, hhash]
      obtain ⟨hsealed, hprev⟩ := h l List.mem_cons_self hash hhash
      obtain ⟨p, hp⟩ := Option.ne_none_iff_exists'.mp hprev
      rw [hp] at hsealed
      simp only [Passes, hhash, hout]
      rw [ih hrest]
      simp [hsealed, hp]

/-- Each remaining hashed link still follows the hash that it followed. The two hashes are
those before the links with and without the removed ones. -/
def SafeCut (genesis : H) (keep : Link β H → Bool) : H → H → List (Link β H) → Prop
  | _, _, [] => True
  | prev, kept, l :: ls =>
    (keep l = true → l.hash ≠ none → kept = prev) ∧
      SafeCut genesis keep (l.outHash genesis) (if keep l then l.outHash genesis else kept) ls

instance decidableSafeCut [DecidableEq H] (genesis : H) (keep : Link β H → Bool) (prev kept : H)
    (ls : List (Link β H)) : Decidable (SafeCut genesis keep prev kept ls) :=
  match ls with
  | [] => .isTrue trivial
  | l :: ls =>
    have := decidableSafeCut genesis keep (l.outHash genesis)
      (if keep l then l.outHash genesis else kept) ls
    inferInstanceAs (Decidable (_ ∧ _))

theorem chained_filter_iff {keep : Link β H → Bool} {kept : H} (h : Chained genesis prev ls) :
    Chained genesis kept (ls.filter keep) ↔ SafeCut genesis keep prev kept ls := by
  induction ls generalizing prev kept with
  | nil => exact iff_of_true chained_nil trivial
  | cons l ls ih =>
    obtain ⟨hl, hls⟩ := chained_cons.mp h
    by_cases hkeep : keep l = true
    · have hhead : (l.hash ≠ none → l.prev = some kept) ↔ (l.hash ≠ none → kept = prev) := by
        refine forall_congr' fun hhash => ?_
        rw [hl hhash, Option.some.injEq, eq_comm]
      rw [List.filter_cons_of_pos hkeep, chained_cons, ih hls, hhead]
      simp [SafeCut, hkeep]
    · rw [List.filter_cons_of_neg hkeep, ih hls]
      simp [SafeCut, hkeep]

theorem lastHash_eq (ls : List (Link β H)) :
    lastHash genesis prev ls = (ls.getLast?.map (outHash genesis)).getD prev := by
  induction ls generalizing prev with
  | nil => rfl
  | cons l ls ih =>
    rw [lastHash_cons, ih, List.getLast?_cons]
    cases ls.getLast? <;> rfl

theorem chained_concat : Chained genesis prev (ls ++ [l]) ↔
    Chained genesis prev ls ∧ (l.hash ≠ none → l.prev = some (lastHash genesis prev ls)) := by
  rw [chained_append, chained_cons]
  exact and_congr_right' (and_iff_left chained_nil)

end Chains

section Edits

variable {genesis sealed}
variable (key : β → ι)

/-- What may happen to a link that stays: its body is changed under its key, and hashes are
cleared. -/
structure Altered (l l' : Link β H) : Prop where
  key : key l'.body = key l.body
  prev : l'.prev = l.prev ∨ l'.prev = none
  hash : l'.hash = l.hash ∨ l'.hash = none

/-- Links may be altered and deleted. The last one stays, with its hash. -/
inductive Edited : List (Link β H) → List (Link β H) → Prop
  | last {l l' : Link β H} (h : Altered key l l') (hhash : l'.hash = l.hash) : Edited [l] [l']
  | keep {l l' : Link β H} {ls ls' : List (Link β H)} (h : Altered key l l')
      (hs : Edited ls ls') : Edited (l :: ls) (l' :: ls')
  | delete {l : Link β H} {ls ls' : List (Link β H)} (hs : Edited ls ls') : Edited (l :: ls) ls'

variable (same : β → β → Prop) (Proper : H → Prop)

/-- Sealing binds the hash before and the body, up to what the seal does not see. -/
structure Binding (genesis : H) (sealed : β → Option H → H) : Prop where
  genesis : Proper genesis
  proper : ∀ b p, Proper (sealed b p)
  binds : ∀ b p b' p', Proper p → (∀ q ∈ p', Proper q) → sealed b (some p) = sealed b' p' →
    p' = some p ∧ same b b'
  respects : ∀ b b' p, same b b' → sealed b' p = sealed b p
  key : ∀ b b', same b b' → key b = key b'

/-- The seal sees no difference between the two links. -/
structure Unseen (l l' : Link β H) : Prop where
  prev : l'.prev = l.prev
  hash : l'.hash = l.hash
  body : same l.body l'.body

variable {key same Proper} {prev : H} {l l' : Link β H}
  {ls ls' : List (Link β H)}

def Earlier [LT ι] (genesis : H) (sealed : β → Option H → H) (key : β → ι) (Proper : H → Prop) (hash : H)
    (ls : List (Link β H)) : Prop :=
  hash = genesis ∨ ∃ b p, Proper p ∧ sealed b (some p) = hash ∧ ∀ l ∈ ls, key b < key l.body

theorem unseen_of_passes (hb : Binding key same Proper genesis sealed)
    (halt : Altered key l l') (hhash : l'.hash = l.hash) {p hash q : H}
    (hsealed : sealed l.body l.prev = hash) (hp : l.prev = some p)
    (hproper : Proper p) (hprev : ∀ p' ∈ l'.prev, p' = q)
    (hpass : sealed l'.body l'.prev = hash) : q = p ∧ Unseen same l l' := by
  have hproper' : ∀ q' ∈ l'.prev, Proper q' := by
    intro q' hq'
    rcases halt.prev with h | h
    · rw [h, hp] at hq'
      exact Option.some.inj hq' ▸ hproper
    · rw [h] at hq'
      cases hq'
  rw [hp] at hsealed
  obtain ⟨hkept, hsame⟩ := hb.binds _ _ _ _ hproper hproper' (hsealed.trans hpass.symm)
  exact ⟨(hprev p hkept).symm, hkept.trans hp.symm, hhash, hsame⟩

theorem Chained.prev_eq {p : H} (h : Chained genesis p (l :: ls))
    (hl : l.hash = some (sealed l.body l.prev)) :
    l.prev = some p ∧ Chained genesis (sealed l.body l.prev) ls := by
  obtain ⟨hprev, hrest⟩ := chained_cons.mp h
  have hout : l.outHash genesis = sealed l.body l.prev := by simp [outHash, hl]
  exact ⟨hprev (by rw [hl]; simp), hout ▸ hrest⟩

theorem Earlier.tail [LT ι] {hash : H} (h : Earlier genesis sealed key Proper hash (l :: ls)) :
    Earlier genesis sealed key Proper hash ls := by
  rcases h with h | ⟨b, p, hp, hb, hkeys⟩
  · exact .inl h
  · exact .inr ⟨b, p, hp, hb, fun l₀ h₀ => hkeys l₀ (List.mem_cons_of_mem l h₀)⟩

theorem Earlier.ne_sealed [Preorder ι] (hb : Binding key same Proper genesis sealed) {p hash : H}
    (hproper : Proper p) (h : Earlier genesis sealed key Proper hash (l :: ls))
    (hne : sealed l.body (some p) ≠ genesis) : hash ≠ sealed l.body (some p) := by
  rintro rfl
  rcases h with h | ⟨b, p', hp', hb', hkeys⟩
  · exact hne h
  · have hproper' : ∀ q' ∈ some p, Proper q' := fun q' hq' => Option.some.inj hq' ▸ hproper
    obtain ⟨_, hsame⟩ := hb.binds _ _ _ _ hp' hproper' hb'
    have hkey := hkeys l List.mem_cons_self
    rw [hb.key _ _ hsame] at hkey
    exact lt_irrefl _ hkey

theorem forall₂_unseen_of_passes [Preorder ι]
    (hb : Binding key same Proper genesis sealed)
    (hedit : Edited key ls ls') {p q : H} (hproper : Proper p) (hchain : Chained genesis p ls)
    (hsealed : ∀ l ∈ ls, l.hash = some (sealed l.body l.prev) ∧ l.hash ≠ some genesis)
    (hsorted : ls.Pairwise fun l l' => key l.body < key l'.body)
    (hearlier : Earlier genesis sealed key Proper q ls) (hpass : Passes genesis sealed q ls') :
    q = p ∧ List.Forall₂ (Unseen same) ls ls' := by
  induction hedit generalizing p q with
  | @last l l' halt hhash =>
    obtain ⟨hl, _⟩ := hsealed l List.mem_cons_self
    obtain ⟨hprev, _⟩ := hchain.prev_eq hl
    simp only [Passes, hhash, hl] at hpass
    obtain ⟨hq, hunseen⟩ :=
      unseen_of_passes hb halt hhash rfl hprev hproper hpass.1 hpass.2.1
    exact ⟨hq, .cons hunseen .nil⟩
  | @keep l l' ls ls' halt _ ih =>
    obtain ⟨hl, hne⟩ := hsealed l List.mem_cons_self
    obtain ⟨hprev, hrest⟩ := hchain.prev_eq hl
    obtain ⟨hlt, hsorted⟩ := List.pairwise_cons.mp hsorted
    have hrestSealed := fun l₀ (h₀ : l₀ ∈ ls) => hsealed l₀ (List.mem_cons_of_mem l h₀)
    rcases halt.hash with hhash | hcleared
    · simp only [Passes, hhash, hl] at hpass
      obtain ⟨hq, hunseen⟩ :=
        unseen_of_passes hb halt hhash rfl hprev hproper hpass.1 hpass.2.1
      have hnext : Earlier genesis sealed key Proper (sealed l.body l.prev) ls :=
        .inr ⟨l.body, p, hproper, by rw [hprev], hlt⟩
      obtain ⟨_, hforall⟩ :=
        ih (hb.proper _ _) hrest hrestSealed hsorted hnext hpass.2.2
      exact ⟨hq, .cons hunseen hforall⟩
    · -- the next link would have to be sealed over the first hash
      simp only [Passes, hcleared] at hpass
      obtain ⟨hgenesis, _⟩ := ih (hb.proper _ _) hrest hrestSealed hsorted (.inl rfl) hpass
      exact absurd (hl.trans (congrArg some hgenesis.symm)) hne
  | @delete l ls ls' _ ih =>
    obtain ⟨hl, hne⟩ := hsealed l List.mem_cons_self
    obtain ⟨hprev, hrest⟩ := hchain.prev_eq hl
    obtain ⟨_, hsorted⟩ := List.pairwise_cons.mp hsorted
    have hrestSealed := fun l₀ (h₀ : l₀ ∈ ls) => hsealed l₀ (List.mem_cons_of_mem l h₀)
    obtain ⟨hq, _⟩ := ih (hb.proper _ _) hrest hrestSealed hsorted hearlier.tail hpass
    rw [hl, hprev, Ne, Option.some.injEq] at hne
    rw [hprev] at hq
    exact absurd hq (hearlier.ne_sealed hb hproper hne)

theorem passes_of_forall₂_unseen (hb : Binding key same Proper genesis sealed)
    (h : List.Forall₂ (Unseen same) ls ls') (hpass : Passes genesis sealed prev ls) :
    Passes genesis sealed prev ls' := by
  induction h generalizing prev with
  | nil => trivial
  | @cons l l' ls ls' hl _ ih =>
    cases hhash : l.hash with
    | none =>
      simp only [Passes, hl.hash, hhash] at hpass ⊢
      exact ih hpass
    | some hash =>
      simp only [Passes, hl.hash, hhash, hl.prev] at hpass ⊢
      exact ⟨hpass.1, (hb.respects _ _ _ hl.body).trans hpass.2.1, ih hpass.2.2⟩

end Edits

end Link

end CaManager.Library
