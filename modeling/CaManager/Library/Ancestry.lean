import Mathlib.Data.List.Perm.Subperm
import Mathlib.Logic.Relation

/-!
# Ancestry

Parents given by a partial function. When nothing is its own ancestor, and there are finitely many
parents, climbing from parent to parent ends without meeting anything twice. New leaves are
nobody's ancestors.
-/

namespace CaManager.Library

open Relation

section Relations

variable {α β : Type*} {r : α → α → Prop} {p : β → β → Prop} {g : α → β} {S : α → Prop}

theorem transGen_map (hstays : ∀ a b, r a b → S b) (hmap : ∀ a b, S a → r a b → p (g a) (g b))
    {a b : α} (ha : S a) (h : TransGen r a b) : TransGen p (g a) (g b) := by
  induction h with
  | single hab => exact .single (hmap a _ ha hab)
  | @tail b c hab hbc ih =>
    have hb : S b := by
      cases hab with
      | single h => exact hstays _ _ h
      | tail _ h => exact hstays _ _ h
    exact ih.tail (hmap b c hb hbc)

theorem target_of_transGen (hstays : ∀ a b, r a b → S b) {a b : α} (h : TransGen r a b) : S b := by
  cases h with
  | single h => exact hstays _ _ h
  | tail _ h => exact hstays _ _ h

end Relations

section Parents

variable {α : Type*} {f f' : α → Option α}

def Acyclic (f : α → Option α) : Prop := ∀ a, ¬TransGen (fun a b => f a = some b) a a

theorem Acyclic.of_leaf (h : Acyclic f) {leaf : α} (hleaf : ∀ a, f' a ≠ some leaf)
    (hsame : ∀ a, a ≠ leaf → f' a = f a) : Acyclic f' := by
  intro a ha
  have hstays : ∀ b c, f' b = some c → c ≠ leaf := by
    rintro b c hbc rfl
    exact hleaf b hbc
  have hmap : ∀ b c, b ≠ leaf → f' b = some c → f b = some c :=
    fun b c hb hbc => (hsame b hb).symm.trans hbc
  exact h a (transGen_map (g := id) hstays hmap (target_of_transGen hstays ha) ha)

theorem Acyclic.mono (h : Acyclic f) (hle : ∀ a b, f' a = some b → f a = some b) : Acyclic f' :=
  fun a ha => h a (transGen_map (g := id) (S := fun _ => True) (fun _ _ _ => trivial)
    (fun a b _ => hle a b) trivial ha)

section Link

variable {k : α}

theorem reflTransGen_of_link (hsame : ∀ a, a ≠ k → f' a = f a) {a : α}
    (h : ReflTransGen (fun a b => f' a = some b) a k) :
    ReflTransGen (fun a b => f a = some b) a k := by
  induction h using ReflTransGen.head_induction_on with
  | refl => exact .refl
  | @head a b hab _ ih =>
    by_cases hak : a = k
    · rw [hak]
    · exact ih.head ((hsame a hak).symm.trans hab)

theorem transGen_of_link (hsame : ∀ a, a ≠ k → f' a = f a) {a b : α}
    (h : TransGen (fun a b => f' a = some b) a b) :
    TransGen (fun a b => f a = some b) a b ∨ ReflTransGen (fun a b => f' a = some b) a k := by
  induction h with
  | @single b hab =>
    by_cases hak : a = k
    · exact .inr (hak ▸ .refl)
    · exact .inl (.single ((hsame a hak).symm.trans hab))
  | @tail b c hab hbc ih =>
    rcases ih with hab' | hak
    · by_cases hbk : b = k
      · exact .inr (hbk ▸ hab.to_reflTransGen)
      · exact .inl (hab'.tail ((hsame b hbk).symm.trans hbc))
    · exact .inr hak

theorem transGen_self_of_reflTransGen {a b : α} (h : TransGen (fun a b => f a = some b) a a)
    (hab : ReflTransGen (fun a b => f a = some b) a b) :
    TransGen (fun a b => f a = some b) b b := by
  induction hab with
  | refl => exact h
  | @tail b c _ hbc ih =>
    obtain ⟨c', hbc', hcb⟩ := TransGen.head'_iff.mp ih
    obtain rfl : c = c' := Option.some.inj (hbc.symm.trans hbc')
    exact TransGen.tail' hcb hbc

theorem Acyclic.link_iff (h : Acyclic f) (hsame : ∀ a, a ≠ k → f' a = f a) {p : α}
    (hk : f' k = some p) : Acyclic f' ↔ ¬ReflTransGen (fun a b => f a = some b) p k := by
  constructor
  · intro h' hpk
    have hback : ∀ a, ReflTransGen (fun a b => f a = some b) a k →
        ReflTransGen (fun a b => f' a = some b) a k := by
      intro a ha
      exact reflTransGen_of_link (fun a ha => (hsame a ha).symm) ha
    exact h' k (TransGen.head' hk (hback p hpk))
  · intro hnot a ha
    rcases transGen_of_link hsame ha with ha' | hak
    · exact h a ha'
    · obtain ⟨b, hkb, hbk⟩ := TransGen.head'_iff.mp (transGen_self_of_reflTransGen ha hak)
      obtain rfl : p = b := Option.some.inj (hk.symm.trans hkb)
      exact hnot (reflTransGen_of_link hsame hbk)

end Link

/-- Climb from an element, if there is one, to the last of its ancestors, over at most so many. -/
def ascend (f : α → Option α) : ℕ → Option α → Option (List α)
  | _, none => some []
  | 0, some _ => none
  | n + 1, some a => (ascend f n (f a)).map (a :: ·)

theorem ascend_of_seen {rows : List α} (hrows : ∀ a b, f a = some b → b ∈ rows)
    (hacyclic : ∀ a, ¬TransGen (fun a b => f a = some b) a a) {n : ℕ} {o : Option α}
    {seen : List α} (hnodup : seen.Nodup) (hseen : seen ⊆ rows) (ho : ∀ a ∈ o, a ∈ rows)
    (habove : ∀ b ∈ seen, ∀ a ∈ o, TransGen (fun a b => f a = some b) b a)
    (hn : seen.length + n = rows.length) :
    ∃ l, ascend f n o = some l ∧ (seen ++ l).Nodup := by
  induction n generalizing o seen with
  | zero =>
    cases o with
    | none => exact ⟨[], rfl, by rwa [List.append_nil]⟩
    | some a =>
      have hnew : a ∉ seen := fun hmem => hacyclic a (habove a hmem a rfl)
      have hlonger : (a :: seen).Nodup := List.nodup_cons.mpr ⟨hnew, hnodup⟩
      have hsub : a :: seen ⊆ rows := List.cons_subset.mpr ⟨ho a rfl, hseen⟩
      have hle := (hlonger.subperm hsub).length_le
      rw [List.length_cons] at hle
      omega
  | succ n ih =>
    cases o with
    | none => exact ⟨[], rfl, by rwa [List.append_nil]⟩
    | some a =>
      have hnew : a ∉ seen := fun hmem => hacyclic a (habove a hmem a rfl)
      have hnext : (seen ++ [a]).Nodup := by
        rw [(List.perm_append_singleton a seen).nodup_iff]
        exact List.nodup_cons.mpr ⟨hnew, hnodup⟩
      have hsub : seen ++ [a] ⊆ rows :=
        List.append_subset.mpr ⟨hseen, List.cons_subset.mpr ⟨ho a rfl, List.nil_subset _⟩⟩
      have hup : ∀ b ∈ seen ++ [a], ∀ c ∈ f a, TransGen (fun a b => f a = some b) b c := by
        intro b hb c hc
        rcases List.mem_append.mp hb with hb | hb
        · exact (habove b hb a rfl).tail hc
        · rw [List.mem_singleton.mp hb]
          exact .single hc
      have hlength : (seen ++ [a]).length + n = rows.length := by
        rw [List.length_append, List.length_singleton]
        omega
      obtain ⟨l, hl, hlnodup⟩ := ih hnext hsub (fun c hc => hrows a c hc) hup hlength
      refine ⟨a :: l, ?_, ?_⟩
      · change (ascend f n (f a)).map (a :: ·) = some (a :: l)
        rw [hl, Option.map_some]
      · rw [List.append_assoc, List.singleton_append] at hlnodup
        exact hlnodup

theorem Acyclic.exists_ascend {rows : List α} (hacyclic : Acyclic f)
    (hrows : ∀ a b, f a = some b → b ∈ rows) {o : Option α} (ho : ∀ a ∈ o, a ∈ rows) :
    ∃ l, ascend f rows.length o = some l ∧ l.Nodup :=
  ascend_of_seen hrows hacyclic List.nodup_nil (List.nil_subset _) ho
    (fun _ hb => absurd hb List.not_mem_nil) (Nat.zero_add _)

theorem transGen_of_mem_ascend {n : ℕ} {a b : α} {l : List α} (h : ascend f n (f a) = some l)
    (hb : b ∈ l) : TransGen (fun a b => f a = some b) a b := by
  induction n generalizing a l with
  | zero =>
    cases hfa : f a with
    | none =>
      rw [hfa] at h
      cases h
      cases hb
    | some c =>
      rw [hfa] at h
      cases h
  | succ n ih =>
    cases hfa : f a with
    | none =>
      rw [hfa] at h
      cases h
      cases hb
    | some c =>
      rw [hfa] at h
      obtain ⟨rest, hrest, rfl⟩ := Option.map_eq_some_iff.mp h
      rcases List.mem_cons.mp hb with rfl | hb
      · exact .single hfa
      · exact .head hfa (ih hrest hb)

end Parents

end CaManager.Library
