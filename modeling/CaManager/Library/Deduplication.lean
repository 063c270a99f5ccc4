import CaManager.Library.Fallible
import Mathlib.Data.List.Basic
import Mathlib.Data.List.Induction

/-!
# Who is served once

A loop goes through a list of attempts, each made for a key. A key that was served is passed over;
so each key is served by the first of its attempts that succeeds.
-/

namespace CaManager.Library

section FirstServed

variable {α β κ : Type*} [DecidableEq κ] (attempt : α → Option β) (key : α → κ) (keyOf : β → κ)

def serveOnce (served : List β) (a : α) : List β :=
  if key a ∈ served.map keyOf then served else served ++ (attempt a).toList

variable {attempt key keyOf} {served : List β} {k : κ}

theorem mem_map_iff_filter_ne_nil :
    k ∈ served.map keyOf ↔ served.filter (keyOf · = k) ≠ [] := by
  simp [List.filter_eq_nil_iff]

theorem filter_serveOnce (hkey : ∀ a b, attempt a = some b → keyOf b = key a) (a : α) :
    (serveOnce attempt key keyOf served a).filter (keyOf · = k) =
      if served.filter (keyOf · = k) = [] then
        (if key a = k then attempt a else none).toList
      else served.filter (keyOf · = k) := by
  unfold serveOnce
  by_cases hk : key a = k
  · by_cases hnil : served.filter (keyOf · = k) = []
    · have hnew : key a ∉ served.map keyOf := by
        rw [hk, mem_map_iff_filter_ne_nil]
        exact not_not_intro hnil
      rw [if_neg hnew, if_pos hnil, if_pos hk, List.filter_append, hnil, List.nil_append]
      cases hb : attempt a with
      | none => rfl
      | some b => simp [hkey a b hb, hk]
    · have hold : key a ∈ served.map keyOf := by
        rwa [hk, mem_map_iff_filter_ne_nil]
      rw [if_pos hold, if_neg hnil]
  · have hother : (attempt a).toList.filter (keyOf · = k) = [] := by
      cases hb : attempt a with
      | none => rfl
      | some b => simp [hkey a b hb, hk]
    have hsame : (if key a ∈ served.map keyOf then served else served ++ (attempt a).toList).filter
        (keyOf · = k) = served.filter (keyOf · = k) := by
      split_ifs
      · rfl
      · rw [List.filter_append, hother, List.append_nil]
    rw [hsame, if_neg hk]
    split_ifs with hnil
    · rw [hnil]
      rfl
    · rfl

theorem filter_foldl_serveOnce (hkey : ∀ a b, attempt a = some b → keyOf b = key a) (l : List α) :
    (l.foldl (serveOnce attempt key keyOf) served).filter (keyOf · = k) =
      if served.filter (keyOf · = k) = [] then
        (l.findSome? fun a => if key a = k then attempt a else none).toList
      else served.filter (keyOf · = k) := by
  induction l generalizing served with
  | nil =>
    split_ifs with hnil
    · exact hnil
    · rfl
  | cons a l ih =>
    rw [List.foldl_cons, ih, filter_serveOnce hkey, List.findSome?_cons]
    by_cases hnil : served.filter (keyOf · = k) = []
    · rw [if_pos hnil, if_pos hnil]
      cases (if key a = k then attempt a else none) with
      | none => exact if_pos rfl
      | some b => exact if_neg (List.cons_ne_nil b [])
    · rw [if_neg hnil, if_neg hnil, if_neg hnil]

end FirstServed

section Loops

variable {ε α β γ : Type*}

theorem exists_foldlM_eq_ok {f : β → α → Except ε β} {view : β → γ} {g : γ → α → γ}
    (h : ∀ b a, ∃ b', f b a = .ok b' ∧ view b' = g (view b) a) (l : List α) (b : β) :
    ∃ b', l.foldlM f b = .ok b' ∧ view b' = l.foldl g (view b) := by
  induction l generalizing b with
  | nil => exact ⟨b, rfl, rfl⟩
  | cons a l ih =>
    obtain ⟨c, hc, hview⟩ := h b a
    obtain ⟨b', hb', hviews⟩ := ih c
    refine ⟨b', ?_, ?_⟩
    · rw [List.foldlM_cons, hc]
      exact hb'
    · rw [List.foldl_cons, ← hview, hviews]

theorem foldlM_of_still {f : β → α → Except (ε × β) β}
    (h : ∀ b a, f b a = .ok b ∨ ∃ e, f b a = .error (e, b)) (l : List α) (b : β) :
    l.foldlM f b = .ok b ∨ ∃ e, l.foldlM f b = .error (e, b) := by
  induction l with
  | nil => exact .inl rfl
  | cons a l ih =>
    rw [List.foldlM_cons]
    rcases h b a with hstep | ⟨e, hstep⟩
    · rw [hstep]
      exact ih
    · rw [hstep]
      exact .inr ⟨e, rfl⟩

end Loops

section FindSome

variable {α β κ : Type*}

theorem findSome?_of_unique [DecidableEq α] [DecidableEq κ] {l : List α} {key : α → κ} {x : α}
    {f : α → Option β} (h : ∀ a ∈ l, key a = key x → a = x) :
    (l.findSome? fun a => if key a = key x then f a else none) =
      if x ∈ l then f x else none := by
  induction l with
  | nil => rfl
  | cons a l ih =>
    obtain ⟨ha, hl⟩ := List.forall_mem_cons.mp h
    rw [List.findSome?_cons, ih hl]
    by_cases hax : a = x
    · subst hax
      rw [if_pos rfl, if_pos List.mem_cons_self]
      cases hf : f a with
      | some b => rfl
      | none => simp
    · rw [if_neg fun hkey => hax (ha hkey)]
      simp [Ne.symm hax]

theorem findSome?_ite {l : List α} {p : α → Bool} {f : α → β} :
    (l.findSome? fun a => if p a then some (f a) else none) = (l.find? p).map f := by
  induction l with
  | nil => rfl
  | cons a l ih =>
    rw [List.findSome?_cons, List.find?_cons]
    cases p a with
    | true => rfl
    | false => exact ih

theorem findSome?_flatMap {l : List α} {f : α → List β} {g : β → Option κ} :
    (l.flatMap f).findSome? g = l.findSome? fun a => (f a).findSome? g := by
  induction l with
  | nil => rfl
  | cons a l ih =>
    rw [List.flatMap_cons, List.findSome?_append, ih, List.findSome?_cons]
    cases (f a).findSome? g with
    | some b => rfl
    | none => rfl

end FindSome

end CaManager.Library

/-!
# Loops that take what they do not have yet

A loop goes through a list and passes over each item whose key it has already. Keys need not tell
items apart: two different items may have the same key, and what was there before the loop may be
without its own. Below is what it takes, of the state before the loop and of the list alone, for
every item to be passed over exactly if the same item is there.
-/

namespace CaManager.Library

section Deduplication

universe u

variable {σ α ε : Type u}

def Reached (f : σ → α → Except ε σ) (s : σ) (l before : List α) (a : α) (s' : σ) : Prop :=
  (∃ after, l = before ++ a :: after) ∧ before.foldlM f s = .ok s'

def Newcomer (known : α → Prop) (sameAs : α → α → Prop) (l : List α) (a : α) : Prop :=
  ∃ before after, l = before ++ a :: after ∧ ¬known a ∧ ∀ b ∈ before, ¬sameAs b a

/-- A step passes over an item that is keyed in the state, and else takes it. -/
structure TakesNew (f : σ → α → Except ε σ) (keyed same : σ → α → Prop)
    (sharesKey sameAs : α → α → Prop) (l : List α) : Prop where
  skip : ∀ s a s', a ∈ l → f s a = .ok s' → keyed s a →
    ∀ x ∈ l, (keyed s' x ↔ keyed s x) ∧ (same s' x ↔ same s x)
  take : ∀ s a s', a ∈ l → f s a = .ok s' → ¬keyed s a →
    ∀ x ∈ l, (keyed s' x ↔ keyed s x ∨ sharesKey a x) ∧ (same s' x ↔ same s x ∨ sameAs a x)
  trans : ∀ s a x, same s a → sameAs a x → same s x
  sameTrans : ∀ a b x, sameAs a b → sameAs b x → sameAs a x
  shares : ∀ a x, a ∈ l → x ∈ l → sameAs a x → sharesKey a x

section Told

variable (keyed same : σ → α → Prop) (sharesKey sameAs : α → α → Prop) (s : σ) (before : List α)
  (a : α)

/-- An item is keyed before it is reached: by what was there, or by a newcomer before it. -/
def KeyedBefore : Prop := keyed s a ∨ ∃ b, Newcomer (same s) sameAs before b ∧ sharesKey b a

def SameBefore : Prop := same s a ∨ ∃ b ∈ before, sameAs b a

def Mistaken : Prop :=
  KeyedBefore keyed same sharesKey sameAs s before a ∧ ¬SameBefore same sameAs s before a

def Overlooked : Prop := same s a ∧ ¬KeyedBefore keyed same sharesKey sameAs s before a

end Told

variable {f : σ → α → Except ε σ} {keyed same : σ → α → Prop} {sharesKey sameAs : α → α → Prop}
  {known : α → Prop} {l before : List α} {s s' : σ} {a b : α}

theorem newcomer_append_singleton :
    Newcomer known sameAs (l ++ [a]) b ↔ Newcomer known sameAs l b ∨
      a = b ∧ ¬known a ∧ ∀ c ∈ l, ¬sameAs c a := by
  constructor
  · rintro ⟨before, after, heq, hknown, hbefore⟩
    cases after using List.reverseRecOn with
    | nil =>
      obtain ⟨rfl, hab⟩ := List.append_inj' heq rfl
      cases hab
      exact .inr ⟨rfl, hknown, hbefore⟩
    | append_singleton after c =>
      rw [← List.cons_append, ← List.append_assoc] at heq
      obtain ⟨rfl, _⟩ := List.append_inj' heq rfl
      exact .inl ⟨before, after, rfl, hknown, hbefore⟩
  · rintro (⟨before, after, rfl, hknown, hbefore⟩ | ⟨rfl, hknown, hbefore⟩)
    · refine ⟨before, after ++ [a], ?_, hknown, hbefore⟩
      rw [← List.cons_append, ← List.append_assoc]
    · exact ⟨l, [], rfl, hknown, hbefore⟩

theorem Reached.append {after : List α} (h : Reached f s l before a s') :
    Reached f s (l ++ after) before a s' := by
  obtain ⟨⟨rest, rfl⟩, hrun⟩ := h
  refine ⟨⟨rest ++ after, ?_⟩, hrun⟩
  rw [List.append_assoc, List.cons_append]

/-- While items are passed over exactly if the same item is there, the state has the keys of the
newcomers and the items so far. -/
theorem TakesNew.state (h : TakesNew f keyed same sharesKey sameAs l)
    (hbefore : ∀ b ∈ before, b ∈ l) (hrun : before.foldlM f s = .ok s')
    (hexact : ∀ earlier b t, Reached f s before earlier b t → (keyed t b ↔ same t b)) :
    ∀ x ∈ l, (keyed s' x ↔ KeyedBefore keyed same sharesKey sameAs s before x) ∧
      (same s' x ↔ SameBefore same sameAs s before x) := by
  induction before using List.reverseRecOn generalizing s' with
  | nil =>
    intro x hx
    cases pure_eq_ok.mp hrun
    have hnone : ∀ b, ¬Newcomer (same s) sameAs [] b := by
      rintro b ⟨earlier, later, heq, _⟩
      cases List.append_eq_nil_iff.mp heq.symm |>.2
    simp [KeyedBefore, SameBefore, hnone]
  | append_singleton before a ih =>
    rw [List.foldlM_append, bind_eq_ok] at hrun
    obtain ⟨t, ht, hstep⟩ := hrun
    rw [List.foldlM_cons, bind_eq_ok] at hstep
    obtain ⟨t', ht', hdone⟩ := hstep
    cases pure_eq_ok.mp hdone
    have ha : a ∈ l := hbefore a (by simp)
    have hstate := ih (fun b hb => hbefore b (List.mem_append_left _ hb)) ht
      fun earlier b u hreached => hexact earlier b u hreached.append
    have hagree : keyed t a ↔ same t a := hexact before a t ⟨⟨[], rfl⟩, ht⟩
    have hsamea := (hstate a ha).2
    intro x hx
    obtain ⟨hkeyedx, hsamex⟩ := hstate x hx
    have hsnoc : SameBefore same sameAs s (before ++ [a]) x ↔ same t x ∨ sameAs a x := by
      rw [hsamex, SameBefore, SameBefore]
      simp [or_and_right, exists_or, or_assoc]
    have hkeys : KeyedBefore keyed same sharesKey sameAs s (before ++ [a]) x ↔
        keyed t x ∨ ¬same t a ∧ sharesKey a x := by
      rw [hkeyedx, hsamea, KeyedBefore, KeyedBefore, SameBefore, or_assoc]
      refine or_congr_right ?_
      simp only [newcomer_append_singleton, or_and_right, exists_or]
      refine or_congr_right ⟨?_, ?_⟩
      · rintro ⟨b, ⟨rfl, hnew⟩, hshares⟩
        refine ⟨?_, hshares⟩
        rintro (hknown | ⟨c, hc, hsame⟩)
        · exact hnew.1 hknown
        · exact hnew.2 c hc hsame
      · rintro ⟨hnew, hshares⟩
        have hfirst : ∀ c ∈ before, ¬sameAs c a := fun c hc hsame => hnew (.inr ⟨c, hc, hsame⟩)
        exact ⟨a, ⟨rfl, fun hknown => hnew (.inl hknown), hfirst⟩, hshares⟩
    rw [hkeys, hsnoc]
    by_cases hkeyed : keyed t a
    · -- passed over: the same item is there, and what is the same as this one is the same as that
      have hthere : same t a := hagree.mp hkeyed
      obtain ⟨hkeyed', hsame'⟩ := h.skip t a s' ha ht' hkeyed x hx
      refine ⟨?_, ?_⟩
      · rw [hkeyed', or_iff_left fun hnew => hnew.1 hthere]
      · rw [hsame', or_iff_left_of_imp fun hsame => h.trans t a x hthere hsame]
    · have hnew : ¬same t a := fun hsame => hkeyed (hagree.mpr hsame)
      obtain ⟨hkeyed', hsame'⟩ := h.take t a s' ha ht' hkeyed x hx
      exact ⟨by rw [hkeyed', and_iff_right hnew], hsame'⟩

theorem Reached.mem (h : Reached f s l before a s') : a ∈ l := by
  obtain ⟨⟨after, rfl⟩, _⟩ := h
  exact List.mem_append_right _ List.mem_cons_self

theorem Reached.subset (h : Reached f s l before a s') : ∀ b ∈ before, b ∈ l := by
  obtain ⟨⟨after, rfl⟩, _⟩ := h
  exact fun b hb => List.mem_append_left _ hb

theorem Reached.earlier {earlier : List α} {t : σ} (h : Reached f s l before a s')
    (hreached : Reached f s before earlier b t) : Reached f s l earlier b t := by
  obtain ⟨⟨after, rfl⟩, _⟩ := h
  exact hreached.append

theorem exists_newcomer (htrans : ∀ a b c, sameAs a b → sameAs b c → sameAs a c) (hb : b ∈ l)
    (hba : sameAs b a) : ∃ c, sameAs c a ∧ (known c ∨ Newcomer known sameAs l c) := by
  induction l using List.reverseRecOn generalizing b with
  | nil => cases hb
  | append_singleton l c ih =>
    have hlater : (∃ d, sameAs d a ∧ (known d ∨ Newcomer known sameAs l d)) →
        ∃ d, sameAs d a ∧ (known d ∨ Newcomer known sameAs (l ++ [c]) d) := by
      rintro ⟨d, hda, hd⟩
      exact ⟨d, hda, hd.imp_right fun hnew => newcomer_append_singleton.mpr (.inl hnew)⟩
    rcases List.mem_append.mp hb with hb | hb
    · exact hlater (ih hb hba)
    · cases List.mem_singleton.mp hb
      by_cases hearlier : ∃ d ∈ l, sameAs d c
      · obtain ⟨d, hd, hdc⟩ := hearlier
        exact hlater (ih hd (htrans d c a hdc hba))
      · refine ⟨c, hba, ?_⟩
        by_cases hknown : known c
        · exact .inl hknown
        · refine .inr (newcomer_append_singleton.mpr (.inr ⟨rfl, hknown, fun d hd hdc => ?_⟩))
          exact hearlier ⟨d, hd, hdc⟩

theorem Newcomer.mem (h : Newcomer known sameAs l a) : a ∈ l := by
  obtain ⟨before, after, rfl, _⟩ := h
  exact List.mem_append_right _ List.mem_cons_self

theorem TakesNew.told_iff (h : TakesNew f keyed same sharesKey sameAs l) (s : σ)
    (hbefore : ∀ b ∈ before, b ∈ l) (ha : a ∈ l) :
    (KeyedBefore keyed same sharesKey sameAs s before a ↔ SameBefore same sameAs s before a) ↔
      ¬Mistaken keyed same sharesKey sameAs s before a ∧
        ¬Overlooked keyed same sharesKey sameAs s before a := by
  have hearlier : (∃ b ∈ before, sameAs b a) → ¬same s a →
      KeyedBefore keyed same sharesKey sameAs s before a := by
    rintro ⟨b, hb, hba⟩ hnot
    have hfirst : ∃ c, sameAs c a ∧ (same s c ∨ Newcomer (same s) sameAs before c) :=
      exists_newcomer h.sameTrans hb hba
    obtain ⟨c, hca, hknown | hnew⟩ := hfirst
    · exact absurd (h.trans s c a hknown hca) hnot
    · exact .inr ⟨c, hnew, h.shares c a (hbefore c hnew.mem) ha hca⟩
  rw [Mistaken, Overlooked, not_and_not_right, not_and_not_right]
  refine iff_iff_implies_and_implies.trans (and_congr_right fun _ => ?_)
  refine ⟨fun hkeyed hsame => hkeyed (.inl hsame), fun hkeyed => ?_⟩
  rintro (hsame | hthere)
  · exact hkeyed hsame
  · by_cases hsame : same s a
    · exact hkeyed hsame
    · exact hearlier hthere hsame

/-- Every item is passed over exactly if the same item is there, if and only if, by the state before
the loop and the items before it, none has the key of another and none was there without its key. -/
theorem TakesNew.exact_iff (h : TakesNew f keyed same sharesKey sameAs l) (s : σ) :
    (∀ before a s', Reached f s l before a s' → (keyed s' a ↔ same s' a)) ↔
      ∀ before a s', Reached f s l before a s' →
        ¬Mistaken keyed same sharesKey sameAs s before a ∧
          ¬Overlooked keyed same sharesKey sameAs s before a := by
  constructor
  · intro hexact before a s' hreached
    rw [← h.told_iff s hreached.subset hreached.mem]
    obtain ⟨hkeyed, hsame⟩ := h.state hreached.subset hreached.2
      (fun earlier b t hearlier => hexact earlier b t (hreached.earlier hearlier)) a hreached.mem
    rw [← hkeyed, ← hsame]
    exact hexact before a s' hreached
  · intro htold before
    induction hlength : before.length using Nat.strongRecOn generalizing before with
    | ind n ih =>
      intro a s' hreached
      have hearlier : ∀ earlier b t, Reached f s before earlier b t → (keyed t b ↔ same t b) := by
        intro earlier b t hb
        refine ih earlier.length ?_ earlier rfl b t (hreached.earlier hb)
        obtain ⟨⟨after, hsplit⟩, _⟩ := hb
        rw [← hlength, hsplit, List.length_append, List.length_cons]
        omega
      obtain ⟨hkeyed, hsame⟩ := h.state hreached.subset hreached.2 hearlier a hreached.mem
      rw [hkeyed, hsame]
      exact (h.told_iff s hreached.subset hreached.mem).mpr (htold before a s' hreached)

theorem TakesNew.keyed_of_finished (h : TakesNew f keyed same sharesKey sameAs l)
    (hself : ∀ a, sharesKey a a) (hbefore : ∀ b ∈ before, b ∈ l)
    (hrun : before.foldlM f s = .ok s') : ∀ a ∈ before, keyed s' a := by
  induction before using List.reverseRecOn generalizing s' with
  | nil => exact fun a ha => nomatch ha
  | append_singleton before b ih =>
    rw [List.foldlM_append, bind_eq_ok] at hrun
    obtain ⟨t, ht, hstep⟩ := hrun
    rw [List.foldlM_cons, bind_eq_ok] at hstep
    obtain ⟨t', ht', hdone⟩ := hstep
    cases pure_eq_ok.mp hdone
    have hb : b ∈ l := hbefore b (by simp)
    have hkeyed := ih (fun a ha => hbefore a (List.mem_append_left _ ha)) ht
    intro a ha
    have hal : a ∈ l := hbefore a ha
    by_cases hkeyedb : keyed t b
    · rw [(h.skip t b s' hb ht' hkeyedb a hal).1]
      rcases List.mem_append.mp ha with ha | ha
      · exact hkeyed a ha
      · cases List.mem_singleton.mp ha
        exact hkeyedb
    · rw [(h.take t b s' hb ht' hkeyedb a hal).1]
      rcases List.mem_append.mp ha with ha | ha
      · exact .inl (hkeyed a ha)
      · cases List.mem_singleton.mp ha
        exact .inr (hself b)

theorem foldlM_passes {τ : Type*} (part : σ → τ) (s : σ)
    (hstep : ∀ a ∈ l, ∀ t, part t = part s → ∃ t', f t a = .ok t' ∧ part t' = part s) :
    ∃ s', l.foldlM f s = .ok s' ∧ part s' = part s := by
  suffices h : ∀ t, part t = part s → ∃ s', l.foldlM f t = .ok s' ∧ part s' = part s from h s rfl
  induction l with
  | nil => exact fun t ht => ⟨t, rfl, ht⟩
  | cons a l ih =>
    intro t ht
    obtain ⟨t', hok, ht'⟩ := hstep a List.mem_cons_self t ht
    rw [List.foldlM_cons, hok]
    exact ih (fun b hb => hstep b (List.mem_cons_of_mem a hb)) t' ht'

end Deduplication

end CaManager.Library
