import Mathlib.Data.List.Basic

/-!
# Computations that may raise

Rules for reading a successful computation backwards. A block that succeeded has a result
for each of its parts, each of its guards held, and each value it demanded was there. The
rules are stated as equivalences, so one `simp only` with them inverts a whole block.
-/

namespace CaManager.Library

universe u

variable {ε : Type*} {α β : Type u}

def ensure (p : Prop) [Decidable p] (e : ε) : Except ε Unit :=
  if p then .ok () else .error e

def orThrow (o : Option α) (e : ε) : Except ε α :=
  match o with
  | some a => .ok a
  | none => .error e

theorem bind_eq_ok {x : Except ε α} {f : α → Except ε β} {b : β} :
    (x >>= f) = .ok b ↔ ∃ a, x = .ok a ∧ f a = .ok b := by
  cases x with
  | error e => exact ⟨(nomatch ·), fun ⟨_, h, _⟩ => nomatch h⟩
  | ok a =>
    constructor
    · exact fun h => ⟨a, rfl, h⟩
    · rintro ⟨_, ⟨rfl⟩, h⟩
      exact h

theorem map_eq_ok {x : Except ε α} {f : α → β} {b : β} :
    (f <$> x) = .ok b ↔ ∃ a, x = .ok a ∧ f a = b := by
  cases x with
  | error e => exact ⟨(nomatch ·), fun ⟨_, h, _⟩ => nomatch h⟩
  | ok a =>
    constructor
    · exact fun h => ⟨a, rfl, Except.ok.inj h⟩
    · rintro ⟨_, ⟨rfl⟩, rfl⟩
      rfl

theorem mapError_eq_ok {ε' : Type*} {x : Except ε α} {f : ε → ε'} {a : α} :
    x.mapError f = .ok a ↔ x = .ok a := by
  cases x with
  | error e => exact ⟨(nomatch ·), (nomatch ·)⟩
  | ok b => exact ⟨fun h => congrArg Except.ok (Except.ok.inj h), fun h => by cases h; rfl⟩

theorem toOption_eq_some {x : Except ε α} {a : α} : x.toOption = some a ↔ x = .ok a := by
  cases x with
  | error e => exact ⟨(nomatch ·), (nomatch ·)⟩
  | ok b => exact ⟨fun h => congrArg Except.ok (Option.some.inj h), fun h => by cases h; rfl⟩

theorem pure_eq_ok {a b : α} : (pure a : Except ε α) = .ok b ↔ a = b :=
  ⟨Except.ok.inj, fun h => h ▸ rfl⟩

@[simp] theorem ok_bind {a : α} {f : α → Except ε β} : ((.ok a : Except ε α) >>= f) = f a := rfl

@[simp] theorem error_bind {e : ε} {f : α → Except ε β} :
    ((.error e : Except ε α) >>= f) = .error e := rfl

theorem ensure_eq_ok {p : Prop} [Decidable p] {e : ε} {u : Unit} :
    ensure p e = .ok u ↔ p := by
  unfold ensure
  split_ifs with h
  · exact ⟨fun _ => h, fun _ => rfl⟩
  · constructor
    · exact fun h' => nomatch h'
    · exact fun hp => absurd hp h

@[simp] theorem ensure_of {p : Prop} [Decidable p] {e : ε} (h : p) : ensure p e = .ok () :=
  if_pos h

@[simp] theorem ensure_of_not {p : Prop} [Decidable p] {e : ε} (h : ¬p) :
    ensure p e = .error e :=
  if_neg h

theorem orThrow_eq_ok {o : Option α} {e : ε} {a : α} : orThrow o e = .ok a ↔ o = some a := by
  cases o with
  | none => exact ⟨(nomatch ·), (nomatch ·)⟩
  | some b => exact ⟨fun h => congrArg some (Except.ok.inj h), fun h => by cases h; rfl⟩

@[simp] theorem orThrow_some {a : α} {e : ε} : orThrow (some a) e = .ok a := rfl

@[simp] theorem orThrow_none {e : ε} : orThrow (none : Option α) e = .error e := rfl

theorem exists_bind_eq_ok {x : Except ε α} {f : α → Except ε β} (hx : ∃ a, x = .ok a)
    (hf : ∀ a, x = .ok a → ∃ b, f a = .ok b) : ∃ b, (x >>= f) = .ok b := by
  obtain ⟨a, rfl⟩ := hx
  exact hf a rfl

theorem bind_eq_map_bind {γ : Type u} {x : Except ε α} {f : α → Except ε β} {f' : α → Except ε γ}
    {g : β → γ} (h : ∀ a, x = .ok a → f' a = g <$> f a) : (x >>= f') = g <$> (x >>= f) := by
  cases x with
  | error e => rfl
  | ok a => exact h a rfl

theorem bind_eq_bind_iff {x : Except ε α} {f g : α → Except ε β} :
    (x >>= f) = (x >>= g) ↔ ∀ a, x = .ok a → f a = g a := by
  cases x with
  | error e => simp
  | ok a =>
    constructor
    · intro h a' ha'
      cases ha'
      exact h
    · exact fun h => h a rfl

theorem orThrow_map_bind {γ : Type u} {o : Option α} {f : α → β} {e : ε} {g : β → Except ε γ} :
    (orThrow (o.map f) e >>= g) = (orThrow o e >>= fun a => g (f a)) := by
  cases o with
  | none => rfl
  | some a => rfl

def Raises (P : ε → Prop) (x : Except ε α) : Prop := ∀ e, x = .error e → P e

section Raises

variable {P : ε → Prop}

theorem raises_ok (a : α) : Raises P (.ok a : Except ε α) := fun _ h => by cases h

theorem raises_error {e : ε} (h : P e) : Raises P (.error e : Except ε α) := by
  intro e' he'
  cases he'
  exact h

theorem Raises.bind {x : Except ε α} {f : α → Except ε β} (hx : Raises P x)
    (hf : ∀ a, x = .ok a → Raises P (f a)) : Raises P (x >>= f) := by
  cases x with
  | error e => exact raises_error (hx e rfl)
  | ok a => exact hf a rfl

theorem raises_ensure {p : Prop} [Decidable p] {e : ε} (h : P e) : Raises P (ensure p e) := by
  unfold ensure
  split_ifs
  · exact raises_ok ()
  · exact raises_error h

theorem raises_orThrow {o : Option α} {e : ε} (h : P e) : Raises P (orThrow o e) := by
  cases o with
  | none => exact raises_error h
  | some a => exact raises_ok a

theorem raises_mapError {ε' : Type*} {x : Except ε' α} {f : ε' → ε} (h : ∀ e, P (f e)) :
    Raises P (x.mapError f) := by
  intro e he
  cases x with
  | error e' =>
    cases he
    exact h e'
  | ok a => cases he

theorem raises_foldlM {f : β → α → Except ε β} (hf : ∀ b a, Raises P (f b a)) (l : List α)
    (b : β) : Raises P (l.foldlM f b) := by
  induction l generalizing b with
  | nil => exact raises_ok b
  | cons a l ih =>
    rw [List.foldlM_cons]
    exact (hf b a).bind fun b' _ => ih b'

end Raises

section Lists

variable {f : α → Except ε β} {l : List α} {bs : List β}

theorem exists_of_mapM_eq_ok (h : l.mapM f = .ok bs) {a : α} (ha : a ∈ l) : ∃ b, f a = .ok b := by
  induction l generalizing bs with
  | nil => cases ha
  | cons a' l ih =>
    rw [List.mapM_cons, bind_eq_ok] at h
    obtain ⟨b, hb, hrest⟩ := h
    obtain ⟨bs', hbs', _⟩ := bind_eq_ok.mp hrest
    rcases List.mem_cons.mp ha with rfl | ha
    · exact ⟨b, hb⟩
    · exact ih hbs' ha

theorem mem_iff_of_mapM_eq_ok (h : l.mapM f = .ok bs) {b : β} :
    b ∈ bs ↔ ∃ a ∈ l, f a = .ok b := by
  induction l generalizing bs with
  | nil =>
    rw [List.mapM_nil, pure_eq_ok] at h
    subst h
    simp
  | cons a' l ih =>
    rw [List.mapM_cons, bind_eq_ok] at h
    obtain ⟨b', hb', hrest⟩ := h
    obtain ⟨bs', hbs', hcons⟩ := bind_eq_ok.mp hrest
    rw [pure_eq_ok] at hcons
    subst hcons
    simp only [List.mem_cons, exists_eq_or_imp, hb', ih hbs', Except.ok.injEq]
    exact or_congr_left eq_comm

end Lists

theorem foldlM_read {γ : Type u} (read : α → Except ε γ) (take : β → γ → β) (l : List α) (b : β) :
    l.foldlM (fun b a => take b <$> read a) b = (fun cs => cs.foldl take b) <$> l.mapM read := by
  induction l generalizing b with
  | nil => rfl
  | cons a l ih =>
    rw [List.foldlM_cons, List.mapM_cons]
    cases read a with
    | error e => rfl
    | ok c =>
      change l.foldlM (fun b a => take b <$> read a) (take b c) = _
      rw [ih]
      cases l.mapM read with
      | error e => rfl
      | ok cs => rfl

theorem foldlM_invariant {I : β → Prop} {f : β → α → Except ε β}
    (hstep : ∀ b a b', I b → f b a = .ok b' → I b') {l : List α} {b b' : β}
    (hb : I b) (h : l.foldlM f b = .ok b') : I b' := by
  induction l generalizing b with
  | nil => exact pure_eq_ok.mp h ▸ hb
  | cons a l ih =>
    rw [List.foldlM_cons, bind_eq_ok] at h
    obtain ⟨c, hc, hrest⟩ := h
    exact ih (hstep b a c hb hc) hrest

/-- Each step of a loop satisfies the condition in the state that it meets. -/
def LoopMeets (C : β → α → Prop) (f : β → α → Except ε β) : β → List α → Prop
  | _, [] => True
  | b, a :: l => C b a ∧ ∀ b', f b a = .ok b' → LoopMeets C f b' l

theorem loopMeets_of_forall {C : β → α → Prop} {f : β → α → Except ε β} {l : List α}
    (h : ∀ a ∈ l, ∀ b, C b a) (b : β) : LoopMeets C f b l := by
  induction l generalizing b with
  | nil => trivial
  | cons a l ih =>
    have hrest : ∀ a' ∈ l, ∀ b, C b a' := fun a' ha' => h a' (List.mem_cons_of_mem a ha')
    exact ⟨h a List.mem_cons_self b, fun b' _ => ih hrest b'⟩

theorem LoopMeets.invariant {I : β → Prop} {C : β → α → Prop} {f : β → α → Except ε β}
    (hstep : ∀ b a b', I b → C b a → f b a = .ok b' → I b') {l : List α} {b b' : β}
    (hl : LoopMeets C f b l) (hb : I b) (h : l.foldlM f b = .ok b') : I b' := by
  induction l generalizing b with
  | nil => exact pure_eq_ok.mp h ▸ hb
  | cons a l ih =>
    rw [List.foldlM_cons, bind_eq_ok] at h
    obtain ⟨c, hc, hrest⟩ := h
    exact ih (hl.2 c hc) (hstep b a c hb hl.1 hc) hrest

/-- A finished loop has the property exactly if each of its steps met the condition, when a step
that meets it is what keeps the property and no step restores it. -/
theorem loopMeets_iff {I P : β → Prop} {C : β → α → Prop} {f : β → α → Except ε β} {l : List α}
    (hkeep : ∀ b a b', I b → f b a = .ok b' → I b')
    (hiff : ∀ b, ∀ a ∈ l, ∀ b', I b → P b → f b a = .ok b' → (P b' ↔ C b a))
    (hback : ∀ b a b', I b → f b a = .ok b' → P b' → P b) {b b' : β} (hI : I b)
    (h : l.foldlM f b = .ok b') : P b' ↔ P b ∧ LoopMeets C f b l := by
  induction l generalizing b with
  | nil =>
    rw [pure_eq_ok.mp h]
    exact (and_iff_left trivial).symm
  | cons a l ih =>
    rw [List.foldlM_cons, bind_eq_ok] at h
    obtain ⟨c, hc, hrest⟩ := h
    have htail := ih (fun b a' ha' => hiff b a' (List.mem_cons_of_mem a ha')) (hkeep b a c hI hc) hrest
    rw [htail]
    constructor
    · rintro ⟨hPc, hl⟩
      have hPb := hback b a c hI hc hPc
      refine ⟨hPb, (hiff b a List.mem_cons_self c hI hPb hc).mp hPc, fun c' hc' => ?_⟩
      cases hc.symm.trans hc'
      exact hl
    · rintro ⟨hPb, hCa, hl⟩
      exact ⟨(hiff b a List.mem_cons_self c hI hPb hc).mpr hCa, hl c hc⟩

end CaManager.Library
