import CaManager.Library.Scanning

/-!
# Texts with PEM blocks

A block has a line with its label, a body, and a line with the label again; the text around the
blocks, and their bodies, are without the words that begin and end a block. A pattern for blocks of
some label takes white space and then data for the body. A scan for it finds the blocks whose label
and body it takes, each as a whole, and nothing else: it does not begin inside of a block, nor with
the dashes that end one, and none of its matches reaches into a block from outside.
-/

namespace CaManager.Library

open Pattern

namespace Pem

def dashes : List Char := ['-', '-', '-', '-', '-']

def beginMark : List Char := ['-', '-', '-', '-', '-', 'B', 'E', 'G', 'I', 'N']

def endMark : List Char := ['-', '-', '-', '-', '-', 'E', 'N', 'D']

def isData (c : Char) : Bool :=
  ('A' ≤ c && c ≤ 'Z') || ('a' ≤ c && c ≤ 'z') || ('0' ≤ c && c ≤ '9') || c = '+' || c = '/' ||
    c = '=' || isSpace c

/-! ### The pattern of a block -/

def opening (label : Pattern) : Pattern := seq (atLeastOne isSpace) label

def contents : Pattern :=
  seq (many isSpace) (seq (exactly ['\n']) (group (atLeastOne isData)))

def armour (label : Pattern) : Pattern :=
  seq (exactly beginMark) (seq (opening label) (seq (exactly dashes) (seq contents
    (seq (exactly endMark) (seq (opening label) (exactly dashes))))))

def IsLabel (label : Pattern) : Prop := NoDigits label fun c => c = '-'

section Matches

variable {label : Pattern} {l x y : List Char} {g : List (List Char)}

theorem isSpace_ne_dash {c : Char} (h : isSpace c = true) : c ≠ '-' ∧ c ≠ 'B' := by
  constructor
  all_goals
    rintro rfl
    revert h
    decide

theorem isData_ne_dash {c : Char} (h : isData c = true) : c ≠ '-' := by
  rintro rfl
  revert h
  decide

theorem isLabel_opening (h : IsLabel label) : IsLabel (opening label) := by
  refine NoDigits.seq (NoDigits.seq ?_ ?_) h
  · exact noDigits_one fun c hc => decide_eq_false (isSpace_ne_dash hc).1
  · exact noDigits_many fun c hc => decide_eq_false (isSpace_ne_dash hc).1

theorem IsLabel.notMem (h : IsLabel label) (hm : Matches label l g) : '-' ∉ l :=
  fun hmem => of_decide_eq_false ((h l g hm).2 '-' hmem) rfl

theorem matches_contents_iff :
    Matches contents y g ↔ ∃ w d, y = w ++ '\n' :: d ∧ (∀ c ∈ w, isSpace c = true) ∧ d ≠ [] ∧
      (∀ c ∈ d, isData c = true) ∧ g = [d] := by
  constructor
  · intro h
    cases h with
    | seq hspaces hrest =>
      cases hspaces with
      | many hall =>
        obtain ⟨d, rfl, hdata⟩ := matches_seq_exactly_iff.mp hrest
        cases hdata with
        | group hsome =>
          obtain ⟨hne, hd, rfl⟩ := matches_atLeastOne_iff.mp hsome
          exact ⟨_, d, rfl, hall, hne, hd, rfl⟩
  · rintro ⟨w, d, rfl, hall, hne, hd, rfl⟩
    have hdata : Matches (group (atLeastOne isData)) d [d] :=
      .group (matches_atLeastOne_iff.mpr ⟨hne, hd, rfl⟩)
    exact .seq (.many hall) (matches_seq_exactly_iff.mpr ⟨d, rfl, hdata⟩)

theorem notMem_of_matches_contents (h : Matches contents y g) : '-' ∉ y := by
  obtain ⟨w, d, rfl, hw, _, hd, _⟩ := matches_contents_iff.mp h
  intro hmem
  rcases List.mem_append.mp hmem with hmem | hmem
  · exact (isSpace_ne_dash (hw '-' hmem)).1 rfl
  · rcases List.mem_cons.mp hmem with heq | hmem
    · cases heq
    · exact isData_ne_dash (hd '-' hmem) rfl

def LineEnds (y : List Char) : Prop := ∃ c cs, y = c :: cs ∧ isSpace c = true

theorem lineEnds_of_matches_contents (h : Matches contents y g) : LineEnds y := by
  obtain ⟨w, d, rfl, hw, _⟩ := matches_contents_iff.mp h
  cases w with
  | nil => exact ⟨'\n', d, rfl, by decide⟩
  | cons c w => exact ⟨c, w ++ '\n' :: d, rfl, hw c List.mem_cons_self⟩

theorem matches_armour_iff (h : IsLabel label) :
    Matches (armour label) l g ↔ ∃ x y z,
      l = beginMark ++ (x ++ (dashes ++ (y ++ (endMark ++ (z ++ dashes))))) ∧
        Matches (opening label) x [] ∧ Matches contents y g ∧ Matches (opening label) z [] := by
  constructor
  · intro hm
    obtain ⟨l₁, rfl, hm₁⟩ := matches_seq_exactly_iff.mp hm
    obtain ⟨x, l₂, gx, g₂, rfl, rfl, hx, hm₂⟩ := matches_seq_iff.mp hm₁
    obtain ⟨l₃, rfl, hm₃⟩ := matches_seq_exactly_iff.mp hm₂
    obtain ⟨y, l₄, gy, g₄, rfl, rfl, hy, hm₄⟩ := matches_seq_iff.mp hm₃
    obtain ⟨l₅, rfl, hm₅⟩ := matches_seq_exactly_iff.mp hm₄
    obtain ⟨z, l₆, gz, g₆, rfl, rfl, hz, hm₆⟩ := matches_seq_iff.mp hm₅
    obtain ⟨rfl, rfl⟩ := matches_exactly_iff.mp hm₆
    obtain ⟨rfl, _⟩ := isLabel_opening h x gx hx
    obtain ⟨rfl, _⟩ := isLabel_opening h z gz hz
    exact ⟨x, y, z, rfl, hx, by simpa using hy, hz⟩
  · rintro ⟨x, y, z, rfl, hx, hy, hz⟩
    have hlast : Matches (exactly dashes) dashes [] := matches_exactly_iff.mpr ⟨rfl, rfl⟩
    have hend : Matches (seq (exactly endMark) (seq (opening label) (exactly dashes)))
        (endMark ++ (z ++ dashes)) [] := matches_seq_exactly_iff.mpr ⟨_, rfl, .seq hz hlast⟩
    have hbody := Matches.seq hy hend
    rw [List.append_nil] at hbody
    exact matches_seq_exactly_iff.mpr
      ⟨_, rfl, .seq hx (matches_seq_exactly_iff.mpr ⟨_, rfl, hbody⟩)⟩

end Matches

/-! ### Where no block begins -/

def Opens (cs : List Char) : Prop := beginMark <+: cs

def Closed (u v : List Char) : Prop := ∀ u', u' <:+ u → u' ≠ [] → ¬Opens (u' ++ v)

def Unmarked (cs : List Char) : Prop := ¬beginMark <:+: cs ∧ ¬endMark <:+: cs

instance (cs : List Char) : Decidable (Unmarked cs) :=
  inferInstanceAs (Decidable (¬beginMark <:+: cs ∧ ¬endMark <:+: cs))

section Closed

variable {label : Pattern} {u v x y : List Char} {c : Char}

theorem closed_nil : Closed [] v := fun _ hsuffix hne => absurd (List.suffix_nil.mp hsuffix) hne

theorem closed_cons : Closed (c :: u) v ↔ ¬Opens (c :: (u ++ v)) ∧ Closed u v := by
  constructor
  · intro h
    exact ⟨h (c :: u) List.suffix_rfl (List.cons_ne_nil c u),
      fun u' hsuffix => h u' (hsuffix.trans (List.suffix_cons c u))⟩
  · rintro ⟨hhere, hrest⟩ u' hsuffix hne
    rcases List.suffix_cons_iff.mp hsuffix with rfl | hsuffix
    · exact hhere
    · exact hrest u' hsuffix hne

theorem closed_append : Closed (u ++ x) v ↔ Closed u (x ++ v) ∧ Closed x v := by
  induction u with
  | nil => exact (and_iff_right closed_nil).symm
  | cons c u ih => rw [List.cons_append, closed_cons, closed_cons, ih, List.append_assoc, and_assoc]

theorem not_opens_cons (h : c ≠ '-') : ¬Opens (c :: u) := by
  intro hopens
  exact h (List.cons_prefix_cons.mp hopens).1.symm

theorem closed_of_notMem (h : '-' ∉ u) : Closed u v := by
  induction u with
  | nil => exact closed_nil
  | cons c u ih =>
    rw [List.mem_cons, not_or] at h
    exact closed_cons.mpr ⟨not_opens_cons (Ne.symm h.1), ih h.2⟩

theorem closed_dashes (h : c ≠ '-' ∧ c ≠ 'B') : Closed dashes (c :: v) := by
  simp [dashes, closed_cons, closed_nil, Opens, beginMark, List.cons_prefix_cons, h.1.symm,
    h.2.symm]

theorem closed_beginMark : Closed beginMark.tail v := by
  simp [beginMark, closed_cons, closed_nil, Opens, List.cons_prefix_cons]

theorem closed_endMark : Closed endMark v := by
  simp [endMark, closed_cons, closed_nil, Opens, beginMark, List.cons_prefix_cons]

theorem exists_drop_prefix {w : List Char} (h : w <+: u ++ v) (hu : u ≠ []) (hnot : ¬w <:+: u) :
    ∃ k, 0 < k ∧ k < w.length ∧ w.drop k <+: v := by
  rcases List.prefix_or_prefix_of_prefix h (List.prefix_append u v) with hw | hw
  · exact absurd hw.isInfix hnot
  · obtain ⟨rest, rfl⟩ := hw
    refine ⟨u.length, List.length_pos_iff.mpr hu, ?_, ?_⟩
    · rw [List.length_append, Nat.lt_add_right_iff_pos, List.length_pos_iff]
      rintro rfl
      exact hnot (by simp)
    · rw [List.drop_left]
      exact (List.prefix_append_right_inj u).mp h

theorem closed_of_unmarked (h : Unmarked u)
    (hv : v = [] ∨ beginMark <+: v ∨ endMark <+: v) : Closed u v := by
  intro u' hsuffix hne hopens
  have hnot : ¬beginMark <:+: u' := fun hinside => h.1 (hinside.trans hsuffix.isInfix)
  obtain ⟨k, hpos, hlt, hdrop⟩ := exists_drop_prefix hopens hne hnot
  change k < 10 at hlt
  rcases hv with rfl | ⟨v, rfl⟩ | ⟨v, rfl⟩
  · have hnil := List.prefix_nil.mp hdrop
    rw [List.drop_eq_nil_iff] at hnil
    exact absurd hnil (Nat.not_le_of_lt hlt)
  all_goals
    revert hdrop
    interval_cases k <;> simp [beginMark, endMark]

theorem closed_inside (hx : '-' ∉ x) (hy : LineEnds y) (hclosed : Closed y (endMark ++ v)) :
    Closed (beginMark.tail ++ (x ++ (dashes ++ (y ++ endMark)))) v := by
  obtain ⟨c, cs, rfl, hc⟩ := hy
  rw [closed_append, closed_append, closed_append, closed_append]
  exact ⟨closed_beginMark, closed_of_notMem hx, closed_dashes (isSpace_ne_dash hc), hclosed,
    closed_endMark⟩

theorem ways_eq_nil_of_not_opens (h : ¬Opens u) : ways (armour label) u = [] := by
  rw [ways_eq_nil_iff]
  rintro l rest g rfl hm
  obtain ⟨l', rfl, _⟩ := matches_seq_exactly_iff.mp hm
  rw [List.append_assoc] at h
  exact h (List.prefix_append _ _)

variable (label) in
theorem noMatch_of_closed (h : Closed u v) : NoMatch (armour label) u v :=
  fun u' hsuffix hne => ways_eq_nil_of_not_opens (h u' hsuffix hne)

/-- A block does not begin with the dashes that end another, for the text up to the next block is
without the word that would end it. -/
theorem ways_dashes_eq_nil {gap next : List Char} (hlabel : IsLabel label) (hu : u <:+ dashes)
    (hne : u ≠ []) (hgap : Unmarked gap) (hnext : next = [] ∨ Opens next) :
    ways (armour label) (u ++ (gap ++ next)) = [] := by
  rw [ways_eq_nil_iff]
  intro l rest g hsplit hm
  obtain ⟨x, y, z, rfl, hx, hy, hz⟩ := (matches_armour_iff hlabel).mp hm
  have hopening := isLabel_opening hlabel
  let front := beginMark ++ (x ++ (dashes ++ y))
  have hwhole : (u ++ gap) ++ next = (front ++ endMark) ++ (z ++ dashes ++ rest) := by
    rw [List.append_assoc, hsplit]
    simp [front]
  have hlength : u.length ≤ front.length := by
    have hle : u.length ≤ 5 := hu.length_le
    have hfront : front.length = 10 + (x ++ (dashes ++ y)).length := List.length_append
    omega
  -- the word that ends the match would be in the gap
  have hword : ∀ a, u ++ gap = (front ++ endMark) ++ a → False := by
    intro a ha
    rw [List.append_assoc] at ha
    rcases List.append_eq_append_iff.mp ha with ⟨b, hfront, hgap'⟩ | ⟨b, hu', hrest⟩
    · exact hgap.2 ⟨b, a, by rw [hgap', List.append_assoc]⟩
    · have hb : b = [] := by
        have hsum := congrArg List.length hu'
        rw [List.length_append] at hsum
        exact List.eq_nil_of_length_eq_zero (by omega)
      rw [hb, List.nil_append] at hrest
      exact hgap.2 ⟨[], a, hrest⟩
  rcases List.append_eq_append_iff.mp hwhole with ⟨a, hfront, hnext'⟩ | ⟨a, hgap', _⟩
  · by_cases ha : a = []
    · rw [ha, List.append_nil] at hfront
      exact hword [] (by rw [hfront, List.append_nil])
    · -- the next block would begin inside of the match
      have hclosed : Closed (beginMark.tail ++ (x ++ (dashes ++ (y ++ endMark))))
          (z ++ dashes ++ rest) :=
        closed_inside (hopening.notMem hx) (lineEnds_of_matches_contents hy)
          (closed_of_notMem (notMem_of_matches_contents hy))
      obtain ⟨d, u', rfl⟩ := List.exists_cons_of_ne_nil hne
      have hsuffix : a <:+ beginMark.tail ++ (x ++ (dashes ++ (y ++ endMark))) := by
        have htail := congrArg List.tail hfront
        refine ⟨u' ++ gap, ?_⟩
        simpa [front, beginMark] using htail.symm
      rcases hnext with rfl | hopens
      · exact ha (List.append_eq_nil_iff.mp hnext'.symm).1
      · exact hclosed a hsuffix ha (hnext' ▸ hopens)
  · exact hword a hgap'

end Closed

/-! ### Blocks in a text -/

/-- A block: a label, and a body that begins behind the first line. -/
structure Block where
  label : List Char
  body : List Char
  label_dash : '-' ∉ label
  body_line : LineEnds body
  body_marks : Unmarked body

namespace Block

def text (b : Block) : List Char :=
  beginMark ++ ((' ' :: b.label) ++ (dashes ++
    (b.body ++ (endMark ++ ((' ' :: b.label) ++ dashes)))))

def plain (b : Block) : Bool := takes contents b.body

def accepted (label : Pattern) (b : Block) : Bool :=
  takes (opening label) (' ' :: b.label) && b.plain

variable {label : Pattern} {b : Block} {l v rest : List Char} {g : List (List Char)}

theorem space_label_dash (b : Block) : '-' ∉ ' ' :: b.label := by
  rw [List.mem_cons, not_or]
  exact ⟨by decide, b.label_dash⟩

theorem eq_of_append_dashes {x y s t : List Char} (hx : '-' ∉ x) (hy : '-' ∉ y)
    (h : x ++ (dashes ++ s) = y ++ (dashes ++ t)) : x = y ∧ s = t := by
  have hdashes : x ++ '-' :: (dashes.tail ++ s) = y ++ '-' :: (dashes.tail ++ t) := h
  obtain ⟨hxy, hrest⟩ := eq_of_append_cons hx hy hdashes
  exact ⟨hxy, List.append_cancel_left hrest⟩

theorem eq_of_append_endMark {y s t : List Char} (hy : '-' ∉ y)
    (h : b.body ++ (endMark ++ s) = y ++ (endMark ++ t)) : b.body = y ∧ s = t := by
  rcases List.append_eq_append_iff.mp h with ⟨a, rfl, ha⟩ | ⟨a, hbody, ha⟩
  · cases a with
    | nil => exact ⟨(List.append_nil _).symm, List.append_cancel_left ha⟩
    | cons c a =>
      have hc : '-' = c := (List.cons.inj ha).1
      exact absurd (List.mem_append_right _ (hc ▸ List.mem_cons_self)) hy
  · by_cases hne : a = []
    · rw [hne, List.nil_append] at ha
      rw [hne, List.append_nil] at hbody
      exact ⟨hbody, (List.append_cancel_left ha).symm⟩
    · -- the word would begin in the body, and cannot reach into itself
      have hnot : ¬endMark <:+: a := fun hinside =>
        b.body_marks.2 (hinside.trans (hbody ▸ (List.suffix_append y a).isInfix))
      have hword : endMark <+: a ++ (endMark ++ s) := ⟨t, ha⟩
      obtain ⟨k, hpos, hlt, hdrop⟩ := exists_drop_prefix hword hne hnot
      change k < 8 at hlt
      revert hdrop
      interval_cases k <;> simp [endMark]

theorem of_matches (hlabel : IsLabel label) (hm : Matches (armour label) l g)
    (h : b.text ++ v = l ++ rest) : b.accepted label = true ∧ rest = v := by
  obtain ⟨x, y, z, rfl, hx, hy, hz⟩ := (matches_armour_iff hlabel).mp hm
  have hopening := isLabel_opening hlabel
  simp only [text, List.append_assoc] at h
  obtain ⟨hxlabel, hbody⟩ := eq_of_append_dashes b.space_label_dash (hopening.notMem hx)
    (List.append_cancel_left h)
  obtain ⟨hybody, hlast⟩ := eq_of_append_endMark (notMem_of_matches_contents hy) hbody
  obtain ⟨_, hrest⟩ := eq_of_append_dashes b.space_label_dash (hopening.notMem hz) hlast
  refine ⟨?_, hrest.symm⟩
  rw [accepted, plain, Bool.and_eq_true, takes_iff, takes_iff]
  exact ⟨⟨[], hxlabel ▸ hx⟩, ⟨g, hybody ▸ hy⟩⟩

theorem exists_matches (hlabel : IsLabel label) (h : b.accepted label = true) :
    ∃ g, Matches (armour label) b.text g := by
  rw [accepted, plain, Bool.and_eq_true, takes_iff, takes_iff] at h
  obtain ⟨⟨gx, hx⟩, ⟨g, hy⟩⟩ := h
  obtain ⟨rfl, _⟩ := isLabel_opening hlabel _ gx hx
  exact ⟨g, (matches_armour_iff hlabel).mpr ⟨_, _, _, rfl, hx, hy, hx⟩⟩

theorem findAll_of_accepted (hlabel : IsLabel label) (h : b.accepted label = true) (start : ℕ)
    (v : List Char) : ∃ g, findAll (armour label) start 0 (b.text ++ v) =
      ⟨start, b.text, g⟩ :: findAll (armour label) (start + b.text.length) 0 v := by
  obtain ⟨g, hg⟩ := head?_ways_of_forall (v := v) (exists_matches hlabel h)
    fun l g rest hm hsplit => (of_matches hlabel hm hsplit).2
  exact ⟨g, findAll_of_head? (List.cons_ne_nil _ _) hg⟩

theorem noMatch_of_not_accepted {gap next : List Char} (hlabel : IsLabel label)
    (h : b.accepted label = false) (hgap : Unmarked gap) (hnext : next = [] ∨ Opens next) :
    NoMatch (armour label) b.text (gap ++ next) := by
  let inside := beginMark.tail ++ ((' ' :: b.label) ++ (dashes ++ (b.body ++ endMark))) ++
    (' ' :: b.label)
  have htext : b.text = '-' :: (inside ++ dashes) := by simp [text, inside, beginMark]
  have hclosed : Closed inside (dashes ++ (gap ++ next)) := by
    refine closed_append.mpr ⟨?_, closed_of_notMem b.space_label_dash⟩
    exact closed_inside b.space_label_dash b.body_line
      (closed_of_unmarked b.body_marks (.inr (.inr (List.prefix_append _ _))))
  intro u hsuffix hne
  rw [htext] at hsuffix
  rcases List.suffix_cons_iff.mp hsuffix with rfl | hsuffix
  · rw [← htext, ways_eq_nil_iff]
    intro l rest g hsplit hm
    exact Bool.false_ne_true (h.symm.trans (of_matches hlabel hm hsplit).1)
  · rcases List.suffix_or_suffix_of_suffix hsuffix (List.suffix_append inside dashes) with hu | hu
    · exact ways_dashes_eq_nil hlabel hu hne hgap hnext
    · obtain ⟨i, rfl⟩ := hu
      have hi : i <:+ inside := List.suffix_append_self_iff.mp hsuffix
      by_cases hnil : i = []
      · rw [hnil, List.nil_append]
        exact ways_dashes_eq_nil hlabel List.suffix_rfl (List.cons_ne_nil _ _) hgap hnext
      · rw [List.append_assoc]
        exact ways_eq_nil_of_not_opens (hclosed i hi hnil)

end Block

section Render

variable {β : Type*} (block : β → Block)

def render (gap : List Char) : List (β × List Char) → List Char
  | [] => gap
  | (b, next) :: parts => gap ++ ((block b).text ++ render next parts)

def located (start : ℕ) (gap : List Char) : List (β × List Char) → List (ℕ × β)
  | [] => []
  | (b, next) :: parts =>
    (start + gap.length, b) :: located (start + gap.length + (block b).text.length) next parts

variable {block} {label : Pattern} {gap : List Char} {parts : List (β × List Char)} {start : ℕ}

theorem opens_text (b : Block) (v : List Char) : Opens (b.text ++ v) := by
  rw [Block.text, List.append_assoc]
  exact List.prefix_append _ _

variable (block) in
theorem exists_render (gap : List Char) (parts : List (β × List Char)) :
    ∃ next, render block gap parts = gap ++ next ∧ (next = [] ∨ Opens next) := by
  cases parts with
  | nil => exact ⟨[], (List.append_nil gap).symm, .inl rfl⟩
  | cons part parts => exact ⟨_, rfl, .inr (opens_text (block part.1) _)⟩

theorem findAll_render (hlabel : IsLabel label) (hgap : Unmarked gap)
    (hparts : ∀ part ∈ parts, Unmarked part.2) :
    (findAll (armour label) start 0 (render block gap parts)).map Found.place =
      ((located block start gap parts).filter fun p => (block p.2).accepted label).map fun p =>
        (p.1, (block p.2).text) := by
  induction parts generalizing start gap with
  | nil =>
    have hclosed : Closed gap [] := closed_of_unmarked hgap (.inl rfl)
    have hfind := findAll_of_noMatch start (noMatch_of_closed label hclosed)
    rw [List.append_nil] at hfind
    rw [render, hfind]
    rfl
  | cons part parts ih =>
    obtain ⟨b, next⟩ := part
    have hnext : Unmarked next := hparts (b, next) List.mem_cons_self
    have hafter : ∀ part ∈ parts, Unmarked part.2 :=
      fun part hpart => hparts part (List.mem_cons_of_mem _ hpart)
    have hclosed : Closed gap ((block b).text ++ render block next parts) :=
      closed_of_unmarked hgap (.inr (.inl (opens_text (block b) _)))
    rw [render, findAll_of_noMatch start (noMatch_of_closed label hclosed), located, List.filter_cons]
    split_ifs with haccepted
    · obtain ⟨g, hfind⟩ := Block.findAll_of_accepted hlabel haccepted (start + gap.length)
        (render block next parts)
      rw [hfind, List.map_cons, ih hnext hafter]
      rfl
    · obtain ⟨after, hsplit, hends⟩ := exists_render block next parts
      have hnone := Block.noMatch_of_not_accepted hlabel
        (Bool.eq_false_of_not_eq_true haccepted) hnext hends
      rw [hsplit, findAll_of_noMatch _ hnone, ← hsplit]
      exact ih hnext hafter

theorem le_of_mem_located {p : ℕ × β} (h : p ∈ located block start gap parts) : start ≤ p.1 := by
  induction parts generalizing start gap with
  | nil => cases h
  | cons part parts ih =>
    rcases List.mem_cons.mp h with rfl | h
    · exact Nat.le_add_right _ _
    · have hle := ih h
      omega

theorem text_length_pos (b : Block) : 0 < b.text.length :=
  List.length_pos_iff.mpr (List.cons_ne_nil _ _)

theorem pairwise_located : (located block start gap parts).Pairwise fun p q => p.1 < q.1 := by
  induction parts generalizing start gap with
  | nil => exact List.Pairwise.nil
  | cons part parts ih =>
    refine List.Pairwise.cons (fun q hq => ?_) ih
    have hle := le_of_mem_located hq
    have hpos := text_length_pos (block part.1)
    dsimp only
    omega

theorem map_snd_located : (located block start gap parts).map Prod.snd = parts.map Prod.fst := by
  induction parts generalizing start gap with
  | nil => rfl
  | cons part parts ih => rw [located, List.map_cons, List.map_cons, ih]

end Render

end Pem

end CaManager.Library
