import CaManager.Library.Texts

/-!
# Patterns

Regular expressions as scripting languages run them. At one place of a text `ways` lists how a
pattern can match there, in the order in which they are tried: a repetition takes what it can, an
option is taken before it is left out. A search goes to the first place where there is a way, and
takes the first one. `Matches` says what a match is, whatever the order; a way is a match and a
match is a way.

Digits and letters are those of any script, as far as they are told from the ASCII ones.
-/

namespace CaManager.Library

inductive Pattern
  | empty
  | one (p : Char → Bool)
  | many (p : Char → Bool)
  | optional (r : Pattern)
  | either (r s : Pattern)
  | seq (r s : Pattern)
  | group (r : Pattern)

namespace Pattern

/-- How a pattern matched at a place: what its groups took, and what is left of the text. -/
structure Way where
  groups : List (List Char)
  rest : List Char
  deriving Repr, DecidableEq

def manyWays (p : Char → Bool) : List Char → List Way
  | [] => [⟨[], []⟩]
  | c :: cs => if p c then manyWays p cs ++ [⟨[], c :: cs⟩] else [⟨[], c :: cs⟩]

def ways : Pattern → List Char → List Way
  | empty, cs => [⟨[], cs⟩]
  | one p, cs =>
    match cs with
    | [] => []
    | c :: cs => if p c then [⟨[], cs⟩] else []
  | many p, cs => manyWays p cs
  | optional r, cs => ways r cs ++ [⟨[], cs⟩]
  | either r s, cs => ways r cs ++ ways s cs
  | seq r s, cs =>
    (ways r cs).flatMap fun w => (ways s w.rest).map fun v => ⟨w.groups ++ v.groups, v.rest⟩
  | group r, cs =>
    (ways r cs).map fun w => ⟨cs.take (cs.length - w.rest.length) :: w.groups, w.rest⟩

def search (r : Pattern) : List Char → Option (List (List Char))
  | [] => (ways r []).head?.map Way.groups
  | c :: cs =>
    match (ways r (c :: cs)).head? with
    | some w => some w.groups
    | none => search r cs

def atLeastOne (p : Char → Bool) : Pattern := seq (one p) (many p)

def literal (same : Char → Char → Bool) : List Char → Pattern
  | [] => empty
  | c :: cs => seq (one (same c)) (literal same cs)

/-- Matches of a pattern: what is taken, and the groups in it. -/
inductive Matches : Pattern → List Char → List (List Char) → Prop
  | empty : Matches empty [] []
  | one {p : Char → Bool} {c : Char} : p c = true → Matches (one p) [c] []
  | many {p : Char → Bool} {l : List Char} : (∀ c ∈ l, p c = true) → Matches (many p) l []
  | skip {r : Pattern} : Matches (optional r) [] []
  | take {r : Pattern} {l : List Char} {g : List (List Char)} :
      Matches r l g → Matches (optional r) l g
  | left {r s : Pattern} {l : List Char} {g : List (List Char)} :
      Matches r l g → Matches (either r s) l g
  | right {r s : Pattern} {l : List Char} {g : List (List Char)} :
      Matches s l g → Matches (either r s) l g
  | seq {r s : Pattern} {l l' : List Char} {g g' : List (List Char)} :
      Matches r l g → Matches s l' g' → Matches (seq r s) (l ++ l') (g ++ g')
  | group {r : Pattern} {l : List Char} {g : List (List Char)} :
      Matches r l g → Matches (group r) l (l :: g)

section Ways

variable {r s : Pattern} {p : Char → Bool} {cs l rest : List Char} {g : List (List Char)}

theorem mem_manyWays :
    (⟨g, rest⟩ : Way) ∈ manyWays p cs ↔ ∃ l, cs = l ++ rest ∧ (∀ c ∈ l, p c = true) ∧ g = [] := by
  induction cs with
  | nil =>
    simp only [manyWays, List.mem_singleton, Way.mk.injEq]
    constructor
    · rintro ⟨hg, hrest⟩
      exact ⟨[], hrest.symm, by simp, hg⟩
    · rintro ⟨l, hl, _, hg⟩
      exact ⟨hg, (List.append_eq_nil_iff.mp hl.symm).2⟩
  | cons c cs ih =>
    have hhere : ∀ l, c :: cs = l ++ rest → l = [] ∨ ∃ l', l = c :: l' ∧ cs = l' ++ rest := by
      intro l hl
      cases l with
      | nil => exact .inl rfl
      | cons d l' =>
        obtain ⟨rfl, htail⟩ := List.cons.inj hl
        exact .inr ⟨l', rfl, htail⟩
    rw [manyWays]
    split_ifs with hc
    · rw [List.mem_append, ih, List.mem_singleton, Way.mk.injEq]
      constructor
      · rintro (⟨l, hl, hall, hg⟩ | ⟨hg, hrest⟩)
        · exact ⟨c :: l, by rw [hl, List.cons_append], by simpa [hc] using hall, hg⟩
        · exact ⟨[], hrest.symm, by simp, hg⟩
      · rintro ⟨l, hl, hall, hg⟩
        obtain rfl | ⟨l', rfl, htail⟩ := hhere l hl
        · exact .inr ⟨hg, hl.symm⟩
        · exact .inl ⟨l', htail, fun d hd => hall d (List.mem_cons_of_mem c hd), hg⟩
    · rw [List.mem_singleton, Way.mk.injEq]
      constructor
      · rintro ⟨hg, hrest⟩
        exact ⟨[], hrest.symm, by simp, hg⟩
      · rintro ⟨l, hl, hall, hg⟩
        obtain rfl | ⟨l', rfl, _⟩ := hhere l hl
        · exact ⟨hg, hl.symm⟩
        · exact absurd (hall c (List.mem_cons_self ..)) hc

theorem mem_ways : (⟨g, rest⟩ : Way) ∈ ways r cs ↔ ∃ l, cs = l ++ rest ∧ Matches r l g := by
  induction r generalizing cs g rest with
  | empty =>
    rw [ways, List.mem_singleton, Way.mk.injEq]
    constructor
    · rintro ⟨rfl, rfl⟩
      exact ⟨[], rfl, .empty⟩
    · rintro ⟨l, rfl, hm⟩
      cases hm
      exact ⟨rfl, rfl⟩
  | one p =>
    constructor
    · intro h
      cases cs with
      | nil => simp [ways] at h
      | cons c cs =>
        simp only [ways] at h
        split_ifs at h with hc
        · rw [List.mem_singleton, Way.mk.injEq] at h
          exact ⟨[c], by rw [h.2, List.singleton_append], h.1 ▸ .one hc⟩
        · cases h
    · rintro ⟨l, rfl, hm⟩
      cases hm with
      | one hc => simp [ways, hc]
  | many p =>
    rw [ways, mem_manyWays]
    constructor
    · rintro ⟨l, hl, hall, rfl⟩
      exact ⟨l, hl, .many hall⟩
    · rintro ⟨l, hl, hm⟩
      cases hm with
      | many hall => exact ⟨l, hl, hall, rfl⟩
  | optional r ih =>
    rw [ways, List.mem_append, ih, List.mem_singleton, Way.mk.injEq]
    constructor
    · rintro (⟨l, hl, hm⟩ | ⟨rfl, rfl⟩)
      · exact ⟨l, hl, .take hm⟩
      · exact ⟨[], rfl, .skip⟩
    · rintro ⟨l, hl, hm⟩
      cases hm with
      | skip => exact .inr ⟨rfl, hl.symm⟩
      | take hm => exact .inl ⟨l, hl, hm⟩
  | either r s ihr ihs =>
    rw [ways, List.mem_append, ihr, ihs]
    constructor
    · rintro (⟨l, hl, hm⟩ | ⟨l, hl, hm⟩)
      · exact ⟨l, hl, .left hm⟩
      · exact ⟨l, hl, .right hm⟩
    · rintro ⟨l, hl, hm⟩
      cases hm with
      | left hm => exact .inl ⟨l, hl, hm⟩
      | right hm => exact .inr ⟨l, hl, hm⟩
  | seq r s ihr ihs =>
    rw [ways, List.mem_flatMap]
    constructor
    · rintro ⟨w, hw, hmap⟩
      obtain ⟨v, hv, heq⟩ := List.mem_map.mp hmap
      obtain ⟨rfl, rfl⟩ := Way.mk.inj heq
      obtain ⟨l, hl, hm⟩ := ihr.mp hw
      obtain ⟨l', hl', hm'⟩ := ihs.mp hv
      exact ⟨l ++ l', by rw [hl, hl', List.append_assoc], .seq hm hm'⟩
    · rintro ⟨l, hl, hm⟩
      cases hm with
      | @seq _ _ l l' g g' hm hm' =>
        refine ⟨⟨g, l' ++ rest⟩, ihr.mpr ⟨l, by rw [hl, List.append_assoc], hm⟩, ?_⟩
        exact List.mem_map.mpr ⟨⟨g', rest⟩, ihs.mpr ⟨l', rfl, hm'⟩, rfl⟩
  | group r ih =>
    have htake : ∀ l, (l ++ rest).take ((l ++ rest).length - rest.length) = l := by
      intro l
      rw [List.length_append, Nat.add_sub_cancel, List.take_left']
      rfl
    rw [ways, List.mem_map]
    constructor
    · rintro ⟨w, hw, heq⟩
      obtain ⟨rfl, rfl⟩ := Way.mk.inj heq
      obtain ⟨l, rfl, hm⟩ := ih.mp hw
      exact ⟨l, rfl, by rw [htake]; exact .group hm⟩
    · rintro ⟨l, rfl, hm⟩
      cases hm with
      | @group _ _ g hm =>
        exact ⟨⟨g, rest⟩, ih.mpr ⟨l, rfl, hm⟩, by rw [htake]⟩

theorem ways_eq_nil_iff :
    ways r cs = [] ↔ ∀ l rest g, cs = l ++ rest → ¬Matches r l g := by
  rw [List.eq_nil_iff_forall_not_mem]
  constructor
  · intro h l rest g hl hm
    exact h ⟨g, rest⟩ (mem_ways.mpr ⟨l, hl, hm⟩)
  · intro h w hw
    obtain ⟨l, hl, hm⟩ := mem_ways.mp hw
    exact h l w.rest w.groups hl hm

theorem manyWays_ne_nil : manyWays p cs ≠ [] := by
  cases cs with
  | nil => exact List.cons_ne_nil _ _
  | cons c cs =>
    rw [manyWays]
    split_ifs with hc
    · exact List.append_ne_nil_of_right_ne_nil _ (List.cons_ne_nil _ _)
    · exact List.cons_ne_nil _ _

theorem head?_manyWays : (manyWays p cs).head? = some ⟨[], cs.dropWhile p⟩ := by
  induction cs with
  | nil => rfl
  | cons c cs ih =>
    rw [manyWays, List.dropWhile_cons]
    split_ifs with hc
    · rw [List.head?_append_of_ne_nil _ manyWays_ne_nil, ih]
    · rfl

theorem head?_ways_seq {w : Way} (h : (ways (seq r s) cs).head? = some w) :
    ∃ u ∈ ways r cs, ∃ v, (ways s u.rest).head? = some v ∧
      w = ⟨u.groups ++ v.groups, v.rest⟩ := by
  rw [ways] at h
  generalize ways r cs = us at h ⊢
  induction us with
  | nil => cases h
  | cons u us ih =>
    rw [List.flatMap_cons] at h
    cases hs : ways s u.rest with
    | nil =>
      rw [hs, List.map_nil, List.nil_append] at h
      obtain ⟨u', hu', hv⟩ := ih h
      exact ⟨u', List.mem_cons_of_mem u hu', hv⟩
    | cons v vs =>
      rw [hs, List.map_cons, List.cons_append, List.head?_cons] at h
      exact ⟨u, List.mem_cons_self .., v, by rw [hs, List.head?_cons], (Option.some.inj h).symm⟩

theorem head?_ways_group_atLeastOne {c : Char} (hc : p c = true) :
    (ways (group (atLeastOne p)) (c :: cs)).head? =
      some ⟨[c :: cs.takeWhile p], cs.dropWhile p⟩ := by
  have hlength : (c :: cs).length - (cs.dropWhile p).length = (cs.takeWhile p).length + 1 := by
    have hsplit := congrArg List.length (List.takeWhile_append_dropWhile (p := p) (l := cs))
    rw [List.length_append] at hsplit
    rw [List.length_cons]
    omega
  have htake : cs.take (cs.takeWhile p).length = cs.takeWhile p :=
    (List.prefix_iff_eq_take.mp (List.takeWhile_prefix p)).symm
  have hways : ways (atLeastOne p) (c :: cs) = manyWays p cs := by
    simp [atLeastOne, ways, hc]
  rw [ways, hways, List.head?_map, head?_manyWays, Option.map_some]
  rw [hlength, List.take_succ_cons, htake]

theorem ways_group_atLeastOne_eq_nil (h : ∀ c ∈ cs.head?, p c = false) :
    ways (group (atLeastOne p)) cs = [] := by
  cases cs with
  | nil => rfl
  | cons c cs => simp [ways, atLeastOne, h c rfl]

end Ways

section Searching

variable {r s : Pattern} {c : Char} {cs pre suf : List Char} {g : List (List Char)}

/-- The first place of a text where the pattern matches is after the given characters. -/
structure FirstPlace (r : Pattern) (cs pre suf : List Char) : Prop where
  split : cs = pre ++ suf
  here : ways r suf ≠ []
  first : ∀ pre' suf', cs = pre' ++ suf' → pre'.length < pre.length → ways r suf' = []

theorem firstPlace_of_ne_nil (h : ways r cs ≠ []) :
    FirstPlace r cs pre suf ↔ pre = [] ∧ suf = cs := by
  constructor
  · intro hplace
    cases pre with
    | nil => exact ⟨rfl, hplace.split.symm⟩
    | cons d pre => exact absurd (hplace.first [] cs rfl (Nat.succ_pos _)) h
  · rintro ⟨rfl, rfl⟩
    exact ⟨rfl, h, fun _ _ _ hlt => absurd hlt (Nat.not_lt_zero _)⟩

theorem firstPlace_cons_of_eq_nil (h : ways r (c :: cs) = []) :
    FirstPlace r (c :: cs) pre suf ↔ ∃ pre', pre = c :: pre' ∧ FirstPlace r cs pre' suf := by
  constructor
  · intro hplace
    cases pre with
    | nil =>
      have hsuf : c :: cs = suf := hplace.split
      exact absurd (hsuf ▸ h) hplace.here
    | cons d pre =>
      obtain ⟨rfl, htail⟩ := List.cons.inj hplace.split
      refine ⟨pre, rfl, htail, hplace.here, fun pre' suf' hsplit hlt => ?_⟩
      exact hplace.first (c :: pre') suf' (by rw [hsplit, List.cons_append]) (Nat.succ_lt_succ hlt)
  · rintro ⟨pre, rfl, hplace⟩
    refine ⟨by rw [hplace.split, List.cons_append], hplace.here, fun pre' suf' hsplit hlt => ?_⟩
    cases pre' with
    | nil => rw [← h, hsplit, List.nil_append]
    | cons d pre' =>
      exact hplace.first pre' suf' (List.cons.inj hsplit).2 (Nat.lt_of_succ_lt_succ hlt)

theorem search_of_ne_nil (h : ways r cs ≠ []) :
    search r cs = (ways r cs).head?.map Way.groups := by
  cases cs with
  | nil => rfl
  | cons c cs =>
    rw [search]
    cases hways : ways r (c :: cs) with
    | nil => exact absurd hways h
    | cons w ws => rfl

theorem search_cons_of_eq_nil (h : ways r (c :: cs) = []) : search r (c :: cs) = search r cs := by
  rw [search, h, List.head?_nil]

theorem search_eq_some_iff : search r cs = some g ↔
    ∃ pre suf, FirstPlace r cs pre suf ∧ ∃ w, (ways r suf).head? = some w ∧ w.groups = g := by
  induction cs with
  | nil =>
    rw [search, Option.map_eq_some_iff]
    constructor
    · intro ⟨w, hw, hg⟩
      have hhere : ways r [] ≠ [] := by
        intro hnil
        rw [hnil] at hw
        cases hw
      exact ⟨[], [], (firstPlace_of_ne_nil hhere).mpr ⟨rfl, rfl⟩, w, hw, hg⟩
    · intro ⟨pre, suf, hplace, hw⟩
      rwa [(List.append_eq_nil_iff.mp hplace.split.symm).2] at hw
  | cons c cs ih =>
    by_cases hways : ways r (c :: cs) = []
    · rw [search_cons_of_eq_nil hways, ih]
      constructor
      · intro ⟨pre, suf, hplace, hw⟩
        exact ⟨c :: pre, suf, (firstPlace_cons_of_eq_nil hways).mpr ⟨pre, rfl, hplace⟩, hw⟩
      · intro ⟨pre, suf, hplace, hw⟩
        obtain ⟨pre', _, hplace'⟩ := (firstPlace_cons_of_eq_nil hways).mp hplace
        exact ⟨pre', suf, hplace', hw⟩
    · rw [search_of_ne_nil hways, Option.map_eq_some_iff]
      constructor
      · intro hw
        exact ⟨[], c :: cs, (firstPlace_of_ne_nil hways).mpr ⟨rfl, rfl⟩, hw⟩
      · intro ⟨pre, suf, hplace, hw⟩
        obtain ⟨_, rfl⟩ := (firstPlace_of_ne_nil hways).mp hplace
        exact hw

theorem search_eq_none_iff : search r cs = none ↔ ∀ pre suf, cs = pre ++ suf → ways r suf = [] := by
  induction cs with
  | nil =>
    rw [search, Option.map_eq_none_iff, List.head?_eq_none_iff]
    constructor
    · intro h pre suf hsplit
      rw [(List.append_eq_nil_iff.mp hsplit.symm).2, h]
    · intro h
      exact h [] [] rfl
  | cons c cs ih =>
    rw [search]
    cases hways : ways r (c :: cs) with
    | nil =>
      rw [List.head?_nil]
      dsimp only
      rw [ih]
      constructor
      · intro h pre suf hsplit
        cases pre with
        | nil => rw [← hways, hsplit, List.nil_append]
        | cons d pre => exact h pre suf (List.cons.inj hsplit).2
      · intro h pre suf hsplit
        exact h (c :: pre) suf (by rw [hsplit, List.cons_append])
    | cons w ws =>
      constructor
      · intro h
        cases h
      · intro h
        have hnone := h [] (c :: cs) rfl
        rw [hways] at hnone
        cases hnone

theorem search_congr (h : ∀ cs, ways r cs = ways s cs) : search r cs = search s cs := by
  induction cs with
  | nil => rw [search, search, h]
  | cons c cs ih => rw [search, search, h, ih]

end Searching

section Numbers

variable {r : Pattern} {p : Char → Bool} {cs ds : List Char} {g : List (List Char)}

def numberAfter (r : Pattern) (p : Char → Bool) : Pattern := seq r (group (atLeastOne p))

def NoDigits (r : Pattern) (p : Char → Bool) : Prop :=
  ∀ l g, Matches r l g → g = [] ∧ ∀ c ∈ l, p c = false

theorem noDigits_empty : NoDigits empty p := by
  intro l g h
  cases h
  exact ⟨rfl, by simp⟩

theorem noDigits_one {q : Char → Bool} (h : ∀ c, q c = true → p c = false) :
    NoDigits (one q) p := by
  intro l g hm
  cases hm with
  | one hc => exact ⟨rfl, by simpa using h _ hc⟩

theorem noDigits_many {q : Char → Bool} (h : ∀ c, q c = true → p c = false) :
    NoDigits (many q) p := by
  intro l g hm
  cases hm with
  | many hall => exact ⟨rfl, fun c hc => h c (hall c hc)⟩

theorem NoDigits.optional (hr : NoDigits r p) : NoDigits (optional r) p := by
  intro l g hm
  cases hm with
  | skip => exact ⟨rfl, by simp⟩
  | take hm => exact hr l g hm

theorem NoDigits.either {s : Pattern} (hr : NoDigits r p) (hs : NoDigits s p) :
    NoDigits (either r s) p := by
  intro l g hm
  cases hm with
  | left hm => exact hr l g hm
  | right hm => exact hs l g hm

theorem NoDigits.seq {s : Pattern} (hr : NoDigits r p) (hs : NoDigits s p) :
    NoDigits (seq r s) p := by
  intro l g hm
  cases hm with
  | @seq _ _ l l' g g' hm hm' =>
    obtain ⟨rfl, hl⟩ := hr l g hm
    obtain ⟨rfl, hl'⟩ := hs l' g' hm'
    refine ⟨rfl, fun c hc => ?_⟩
    obtain hc | hc := List.mem_append.mp hc
    · exact hl c hc
    · exact hl' c hc

theorem noDigits_literal {same : Char → Char → Bool} {word : List Char}
    (h : ∀ c ∈ word, ∀ d, same c d = true → p d = false) : NoDigits (literal same word) p := by
  induction word with
  | nil => exact noDigits_empty
  | cons c word ih =>
    apply NoDigits.seq
    · exact noDigits_one (h c (List.mem_cons_self ..))
    · exact ih fun d hd => h d (List.mem_cons_of_mem c hd)

/-- The text has a match and a number after it; no such place is before it, and the number goes on
as long as there are digits. -/
structure FirstNumber (r : Pattern) (p : Char → Bool) (cs pre m ds rest : List Char) : Prop where
  split : cs = pre ++ (m ++ (ds ++ rest))
  before : Matches r m []
  nonempty : ds ≠ []
  digits : ∀ c ∈ ds, p c = true
  ends : ∀ c ∈ rest.head?, p c = false
  first : ∀ pre' m' c rest', cs = pre' ++ (m' ++ c :: rest') → Matches r m' [] → p c = true →
    pre.length ≤ pre'.length

theorem ways_numberAfter_ne_nil_iff (hr : NoDigits r p) :
    ways (numberAfter r p) cs ≠ [] ↔
      ∃ m c rest, cs = m ++ c :: rest ∧ Matches r m [] ∧ p c = true := by
  constructor
  · intro h
    obtain ⟨⟨g, tail⟩, hw⟩ := List.exists_mem_of_ne_nil _ h
    obtain ⟨l, hl, hm⟩ := mem_ways.mp hw
    cases hm with
    | @seq _ _ m l' g g' hbefore hnumber =>
      cases hnumber with
      | group hsome =>
        cases hsome with
        | @seq _ _ _ more _ _ hone hmany =>
          cases hone with
          | @one _ c hc =>
            obtain ⟨rfl, _⟩ := hr m g hbefore
            refine ⟨m, c, more ++ tail, ?_, hbefore, hc⟩
            rw [hl, List.append_assoc, List.append_assoc, List.singleton_append]
  · intro ⟨m, c, rest, hsplit, hbefore, hc⟩ hnil
    have hnumber : Matches (group (atLeastOne p)) ([c] ++ []) [[c] ++ []] :=
      .group (.seq (.one hc) (.many (by simp)))
    refine ways_eq_nil_iff.mp hnil (m ++ ([c] ++ [])) rest _ ?_ (.seq hbefore hnumber)
    rw [hsplit, List.append_nil, List.append_assoc, List.singleton_append]

theorem head?_ways_numberAfter (hr : NoDigits r p) {w : Way}
    (h : (ways (numberAfter r p) cs).head? = some w) :
    ∃ m ds rest, FirstNumber r p cs [] m ds rest ∧ w.groups = [ds] := by
  obtain ⟨u, hu, v, hv, hw⟩ := head?_ways_seq h
  obtain ⟨m, hm, hbefore⟩ := mem_ways.mp hu
  obtain ⟨hgroups, _⟩ := hr m u.groups hbefore
  rw [hgroups] at hbefore
  by_cases hdigit : ∀ c ∈ u.rest.head?, p c = false
  · rw [ways_group_atLeastOne_eq_nil hdigit] at hv
    cases hv
  · cases hrest : u.rest with
    | nil => simp [hrest] at hdigit
    | cons c tail =>
      have hc : p c = true := by simpa [hrest] using hdigit
      rw [hrest, head?_ways_group_atLeastOne hc, Option.some.injEq] at hv
      refine ⟨m, c :: tail.takeWhile p, tail.dropWhile p, ?_, by rw [hw, hgroups, ← hv]; rfl⟩
      constructor
      · rw [hm, hrest, List.cons_append, List.takeWhile_append_dropWhile, List.nil_append]
      · exact hbefore
      · exact List.cons_ne_nil _ _
      · intro d hd
        obtain rfl | hd := List.mem_cons.mp hd
        · exact hc
        · exact List.all_eq_true.mp List.all_takeWhile d hd
      · intro d hd
        have hnot := List.head?_dropWhile_not p tail
        rw [Option.mem_def.mp hd] at hnot
        exact hnot
      · intro _ _ _ _ _ _ _
        exact Nat.zero_le _

theorem FirstNumber.unique (hr : NoDigits r p) {m m' ds' rest rest' : List Char}
    (h : FirstNumber r p cs [] m ds rest) (h' : FirstNumber r p cs [] m' ds' rest') :
    ds = ds' := by
  have hdigits : ∀ {m ds rest}, FirstNumber r p cs [] m ds rest →
      (cs.dropWhile fun c => !p c).takeWhile p = ds := by
    intro m ds rest h
    have hskip : ∀ c ∈ m, (!p c) = true := by
      intro c hc
      rw [(hr m [] h.before).2 c hc, Bool.not_false]
    have hrest : rest.takeWhile p = [] := by
      cases hcases : rest with
      | nil => rfl
      | cons c tail => rw [List.takeWhile_cons_of_neg (by simp [h.ends c (by rw [hcases]; rfl)])]
    cases hds : ds with
    | nil => exact absurd hds h.nonempty
    | cons c tail =>
      have hc : p c = true := h.digits c (by rw [hds]; exact List.mem_cons_self ..)
      rw [h.split, List.nil_append, List.dropWhile_append_of_pos hskip, hds, List.cons_append,
        List.dropWhile_cons_of_neg (by simp [hc]), ← List.cons_append, ← hds,
        List.takeWhile_append_of_pos h.digits, hrest, List.append_nil]
  rw [← hdigits h, hdigits h']

theorem search_numberAfter_eq_some_iff (hr : NoDigits r p) :
    search (numberAfter r p) cs = some g ↔
      ∃ pre m ds rest, FirstNumber r p cs pre m ds rest ∧ g = [ds] := by
  rw [search_eq_some_iff]
  constructor
  · intro ⟨pre, suf, hplace, w, hw, hg⟩
    obtain ⟨m, ds, rest, hnumber, hgroups⟩ := head?_ways_numberAfter hr hw
    refine ⟨pre, m, ds, rest, ?_, hg.symm.trans hgroups⟩
    refine ⟨by rw [hplace.split, hnumber.split, List.nil_append], hnumber.before,
      hnumber.nonempty, hnumber.digits, hnumber.ends, ?_⟩
    intro pre' m' c rest' hsplit hbefore hc
    by_contra hlt
    have hnil := hplace.first pre' _ hsplit (Nat.lt_of_not_le hlt)
    exact (ways_numberAfter_ne_nil_iff hr).mpr ⟨m', c, rest', rfl, hbefore, hc⟩ hnil
  · intro ⟨pre, m, ds, rest, hnumber, hg⟩
    have hhere : ways (numberAfter r p) (m ++ (ds ++ rest)) ≠ [] := by
      rw [ways_numberAfter_ne_nil_iff hr]
      cases hds : ds with
      | nil => exact absurd hds hnumber.nonempty
      | cons c tail =>
        have hc : p c = true := hnumber.digits c (by rw [hds]; exact List.mem_cons_self ..)
        exact ⟨m, c, tail ++ rest, by rw [List.cons_append], hnumber.before, hc⟩
    refine ⟨pre, m ++ (ds ++ rest), ⟨hnumber.split, hhere, ?_⟩, ?_⟩
    · intro pre' suf' hsplit hlt
      by_contra hne
      obtain ⟨m', c, rest', rfl, hbefore, hc⟩ := (ways_numberAfter_ne_nil_iff hr).mp hne
      exact absurd (hnumber.first pre' m' c rest' hsplit hbefore hc) (Nat.not_le_of_lt hlt)
    · cases hways : (ways (numberAfter r p) (m ++ (ds ++ rest))).head? with
      | none => exact absurd (List.head?_eq_none_iff.mp hways) hhere
      | some w =>
        obtain ⟨m', ds', rest', hnumber', hgroups⟩ := head?_ways_numberAfter hr hways
        have hfirst : FirstNumber r p (m ++ (ds ++ rest)) [] m ds rest :=
          ⟨rfl, hnumber.before, hnumber.nonempty, hnumber.digits, hnumber.ends,
            fun _ _ _ _ _ _ _ => Nat.zero_le _⟩
        exact ⟨w, rfl, by rw [hgroups, hg, hfirst.unique hr hnumber']⟩

theorem search_numberAfter_eq_none_iff (hr : NoDigits r p) :
    search (numberAfter r p) cs = none ↔
      ∀ pre m c rest, cs = pre ++ (m ++ c :: rest) → Matches r m [] → p c = false := by
  rw [search_eq_none_iff]
  constructor
  · intro h pre m c rest hsplit hbefore
    by_contra hc
    exact (ways_numberAfter_ne_nil_iff hr).mpr
      ⟨m, c, rest, rfl, hbefore, Bool.eq_true_of_not_eq_false hc⟩ (h pre _ hsplit)
  · intro h pre suf hsplit
    by_contra hne
    obtain ⟨m, c, rest, rfl, hbefore, hc⟩ := (ways_numberAfter_ne_nil_iff hr).mp hne
    rw [h pre m c rest hsplit hbefore] at hc
    cases hc

theorem ways_numberAfter_empty :
    ways (numberAfter empty p) cs = ways (group (atLeastOne p)) cs := by
  simp [numberAfter, ways]

end Numbers

section Scripts

/-- The zeros of the scripts that have digits; the other digits follow them. -/
def decimalZeros : List ℕ :=
  [0x30, 0x660, 0x6f0, 0x7c0, 0x966, 0x9e6, 0xa66, 0xae6, 0xb66, 0xbe6, 0xc66, 0xce6, 0xd66, 0xde6,
    0xe50, 0xed0, 0xf20, 0x1040, 0x1090, 0x17e0, 0x1810, 0x1946, 0x19d0, 0x1a80, 0x1a90, 0x1b50,
    0x1bb0, 0x1c40, 0x1c50, 0xa620, 0xa8d0, 0xa900, 0xa9d0, 0xa9f0, 0xaa50, 0xabf0, 0xff10, 0x104a0,
    0x10d30, 0x11066, 0x110f0, 0x11136, 0x111d0, 0x112f0, 0x11450, 0x114d0, 0x11650, 0x116c0,
    0x11730, 0x118e0, 0x11950, 0x11c50, 0x11d50, 0x11da0, 0x11f50, 0x16a60, 0x16ac0, 0x16b50,
    0x1d7ce, 0x1d7d8, 0x1d7e2, 0x1d7ec, 0x1d7f6, 0x1e140, 0x1e2f0, 0x1e4f0, 0x1e950, 0x1fbf0]

def decimalDigit (c : Char) : Option ℕ :=
  (decimalZeros.find? fun z => decide (z ≤ c.toNat ∧ c.toNat < z + 10)).map (c.toNat - ·)

def isDecimalDigit (c : Char) : Bool := (decimalDigit c).isSome

def decimalNumber (ds : List Char) : ℕ :=
  ds.foldl (fun n c => 10 * n + (decimalDigit c).getD 0) 0

/-- Does a character match a small letter or a sign, whatever its case? Three letters have
relatives outside ASCII that match them. -/
def sameLetter (c d : Char) : Bool :=
  d = c || d.toLower = c || (c = 'i' && (d = '\u0130' || d = '\u0131')) ||
    (c = 's' && d = '\u017f') || (c = 'k' && d = '\u212a')

def lowerText (s : String) : String :=
  String.ofList (s.toList.flatMap fun c =>
    if c = '\u212a' then ['k'] else if c = '\u0130' then ['i', '\u0307'] else [c.toLower])

theorem exists_of_isDecimalDigit {c : Char} (h : isDecimalDigit c = true) :
    ∃ z ∈ decimalZeros, ∃ i ∈ List.range 10, c = Char.ofNat (z + i) := by
  unfold isDecimalDigit decimalDigit at h
  rw [Option.isSome_map] at h
  obtain ⟨z, hz⟩ := Option.isSome_iff_exists.mp h
  have hmem := List.mem_of_find?_eq_some hz
  have hrange : z ≤ c.toNat ∧ c.toNat < z + 10 := by simpa using List.find?_some hz
  refine ⟨z, hmem, c.toNat - z, List.mem_range.mpr (by omega), ?_⟩
  rw [Nat.add_sub_cancel' hrange.1, Char.ofNat_toNat]

theorem not_isDecimalDigit {q : Char → Bool}
    (h : (decimalZeros.all fun z => (List.range 10).all fun i => !q (Char.ofNat (z + i))) = true)
    (c : Char) (hc : q c = true) : isDecimalDigit c = false := by
  by_contra hdigit
  obtain ⟨z, hz, i, hi, rfl⟩ := exists_of_isDecimalDigit (Bool.eq_true_of_not_eq_false hdigit)
  have hnot := List.all_eq_true.mp (List.all_eq_true.mp h z hz) i hi
  rw [hc] at hnot
  cases hnot

end Scripts

end Pattern

end CaManager.Library
