import CaManager.Library.Texts

/-!
# Distinguished names as text

A name is written with a comma between its attributes, each as its label, an equals sign and its
value. In a value some characters have a backslash in front, and so have a space or number sign at
its start and a space at its end.
-/

namespace CaManager.Library.Rfc4514

def escapeChar (c : Char) : List Char :=
  if c ∈ ['\\', '"', '+', ',', ';', '<', '>'] then ['\\', c]
  else if c = '\x00' then ['\\', '0', '0']
  else [c]

def escapeFirst : List Char → List Char
  | '#' :: cs => '\\' :: '#' :: cs
  | ' ' :: c :: cs => '\\' :: ' ' :: c :: cs
  | cs => cs

def escapeLast (cs : List Char) : List Char :=
  if cs.getLast? = some ' ' then cs.dropLast ++ ['\\', ' '] else cs

def escapeValue (cs : List Char) : List Char := escapeLast (escapeFirst (cs.flatMap escapeChar))

def escaped (value : String) : String := String.ofList (escapeValue value.toList)

def rdn (a : String × String) : String := a.1 ++ "=" ++ escaped a.2

def text (attributes : List (String × String)) : String :=
  joinText ',' (attributes.map rdn)

section Values

variable {cs : List Char} {c : Char} {p : Char → Bool}

theorem mem_escapeChar {d : Char} (h : d ∈ escapeChar c) : d = c ∨ d = '\\' ∨ d = '0' := by
  unfold escapeChar at h
  split_ifs at h
  · rcases List.mem_cons.mp h with rfl | h
    · exact .inr (.inl rfl)
    · exact .inl (List.mem_singleton.mp h)
  · simp only [List.mem_cons, List.not_mem_nil, or_false] at h
    rcases h with rfl | rfl | rfl
    · exact .inr (.inl rfl)
    · exact .inr (.inr rfl)
    · exact .inr (.inr rfl)
  · exact .inl (List.mem_singleton.mp h)

theorem escapeFirst_eq (cs : List Char) :
    escapeFirst cs = cs ∨ escapeFirst cs = '\\' :: cs := by
  unfold escapeFirst
  split
  · exact .inr rfl
  · exact .inr rfl
  · exact .inl rfl

theorem mem_escapeLast {d : Char} (h : d ∈ escapeLast cs) : d ∈ cs ∨ d = '\\' ∨ d = ' ' := by
  unfold escapeLast at h
  split_ifs at h
  · rcases List.mem_append.mp h with h | h
    · exact .inl (List.mem_of_mem_dropLast h)
    · simp only [List.mem_cons, List.not_mem_nil, or_false] at h
      exact .inr h
  · exact .inl h

theorem comma_notMem_escapeValue (h : ',' ∉ cs) : ',' ∉ escapeValue cs := by
  intro hmem
  have hchars : ',' ∉ cs.flatMap escapeChar := by
    intro hin
    obtain ⟨c, hc, hin⟩ := List.mem_flatMap.mp hin
    rcases mem_escapeChar hin with rfl | h' | h'
    · exact h hc
    · exact absurd h' (by decide)
    · exact absurd h' (by decide)
  have hfirst : ',' ∉ escapeFirst (cs.flatMap escapeChar) := by
    rcases escapeFirst_eq (cs.flatMap escapeChar) with heq | heq
    · rwa [heq]
    · rw [heq, List.mem_cons, not_or]
      exact ⟨by decide, hchars⟩
  rcases mem_escapeLast hmem with hin | h' | h'
  · exact hfirst hin
  · exact absurd h' (by decide)
  · exact absurd h' (by decide)

theorem escapeChar_concat (hzero : p '0' = false) (hc : p c = false) :
    ∃ init d, escapeChar c = init ++ [d] ∧ p d = false := by
  unfold escapeChar
  split_ifs
  · exact ⟨['\\'], c, rfl, hc⟩
  · exact ⟨['\\', '0'], '0', rfl, hzero⟩
  · exact ⟨[], c, rfl, hc⟩

theorem escapeValue_eq_self (hzero : p '0' = false) (hspace : p ' ' = true)
    (h : (escapeValue cs).rdropWhile p = cs) : escapeValue cs = cs ∧ cs.rdropWhile p = cs := by
  cases cs using List.reverseRecOn with
  | nil => exact ⟨rfl, rfl⟩
  | append_singleton cs c _ =>
    have hlast : p c = false := by
      have hne : (escapeValue (cs ++ [c])).rdropWhile p ≠ [] := by
        rw [h]
        simp
      have hnot := List.rdropWhile_last_not p (escapeValue (cs ++ [c])) hne
      simp only [h, List.getLast_append_singleton] at hnot
      simpa using hnot
    obtain ⟨init, d, hchar, hd⟩ := escapeChar_concat hzero hlast
    have hends : ∃ front, escapeFirst ((cs ++ [c]).flatMap escapeChar) = front ++ [d] := by
      have hflat : (cs ++ [c]).flatMap escapeChar = (cs.flatMap escapeChar ++ init) ++ [d] := by
        simp [hchar]
      rcases escapeFirst_eq ((cs ++ [c]).flatMap escapeChar) with heq | heq
      · exact ⟨_, heq.trans hflat⟩
      · exact ⟨'\\' :: (cs.flatMap escapeChar ++ init), by rw [heq, hflat]; rfl⟩
    obtain ⟨front, hfront⟩ := hends
    have hwritten : escapeValue (cs ++ [c]) = front ++ [d] := by
      rw [escapeValue, hfront, escapeLast, if_neg]
      rw [List.getLast?_concat, Option.some.injEq]
      rintro rfl
      rw [hspace] at hd
      cases hd
    rw [hwritten, List.rdropWhile_concat_neg _ _ _ (by simp [hd])] at h
    rw [hwritten, h]
    exact ⟨rfl, List.rdropWhile_concat_neg _ _ _ (by simp [hlast])⟩

theorem length_flatMap_escapeChar_le (cs : List Char) :
    cs.length ≤ (cs.flatMap escapeChar).length := by
  induction cs with
  | nil => exact Nat.zero_le _
  | cons c cs ih =>
    have hchar : 1 ≤ (escapeChar c).length := by
      unfold escapeChar
      split_ifs <;> simp
    rw [List.flatMap_cons, List.length_append, List.length_cons]
    omega

theorem length_le_escapeValue (cs : List Char) :
    (cs.flatMap escapeChar).length ≤ (escapeValue cs).length := by
  have hfirst : (cs.flatMap escapeChar).length ≤ (escapeFirst (cs.flatMap escapeChar)).length := by
    rcases escapeFirst_eq (cs.flatMap escapeChar) with heq | heq <;> rw [heq]
    simp
  have hlast : ∀ l : List Char, l.length ≤ (escapeLast l).length := by
    intro l
    unfold escapeLast
    split_ifs with hspace
    · simp only [List.length_append, List.length_dropLast, List.length_cons, List.length_nil]
      omega
    · exact le_rfl
  exact hfirst.trans (hlast _)

theorem notMem_of_escapeValue_eq (h : escapeValue cs = cs) (hc : 1 < (escapeChar c).length) :
    c ∉ cs := by
  intro hmem
  obtain ⟨front, back, rfl⟩ := List.append_of_mem hmem
  have hfront := length_flatMap_escapeChar_le front
  have hback := length_flatMap_escapeChar_le back
  have hle := length_le_escapeValue (front ++ c :: back)
  rw [h] at hle
  simp only [List.flatMap_append, List.flatMap_cons, List.length_append, List.length_cons] at hle
  omega

end Values

theorem splitText_text {attributes : List (String × String)} (hne : attributes ≠ [])
    (h : ∀ a ∈ attributes, ',' ∉ a.1.toList ∧ ',' ∉ a.2.toList) :
    splitText ',' (text attributes) = attributes.map rdn := by
  refine splitText_joinText (by simpa using hne) ?_
  intro part hpart
  obtain ⟨a, ha, rfl⟩ := List.mem_map.mp hpart
  obtain ⟨hlabel, hvalue⟩ := h a ha
  have hwritten := comma_notMem_escapeValue hvalue
  simp [rdn, escaped, hlabel, hwritten]

end CaManager.Library.Rfc4514
