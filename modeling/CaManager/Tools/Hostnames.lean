import CaManager.Library.IpAddresses
import CaManager.X509

/-!
# The host names of a certificate

The check of a server reads its certificate and says whether it names the host. A name of a
certificate should be compared with the host by its labels, without regard to case, and addresses
as addresses. The check compares texts: their ends, and how many dots there are.
-/

namespace CaManager

open Library

section HostnameMatch

def matchesHost (hostname : String) : GeneralName → Bool
  | .dns value =>
    value = hostname ||
      (startsWith value "*." &&
        (let domain := value.toList.drop 2
         domain.isSuffixOf hostname.toList &&
          hostname.toList.count '.' = domain.count '.' + 1))
  | _ => false

def hostnameMatch (hostname : String) (san : Option (List GeneralName)) : Bool :=
  (san.getD []).any (matchesHost hostname)

def IsWildcardOf (hostname value : String) : Prop :=
  ∃ label domain, value = "*." ++ domain ∧ label ≠ "" ∧ '.' ∉ label.toList ∧
    hostname = label ++ "." ++ domain

def NamesHost (hostname : String) : GeneralName → Prop
  | .dns value => lower value = lower hostname ∨ IsWildcardOf hostname value
  | .ip value =>
    ∃ address, ipAddressOfText hostname = some address ∧ ipAddressOfText value = some address
  | _ => False

def NamesHostPlainly (hostname : String) : GeneralName → Prop
  | .dns value => value = hostname ∨ IsWildcardOf hostname value
  | _ => False

/-- The name is the host name in other letters, or the address that the host is. -/
def NamesHostOtherwise (hostname : String) : GeneralName → Prop
  | .dns value => value ≠ hostname ∧ lower value = lower hostname
  | .ip value =>
    ∃ address, ipAddressOfText hostname = some address ∧ ipAddressOfText value = some address
  | _ => False

/-- A wildcard whose domain the host name ends with, by characters with one dot more, but not below
a dot and a label. -/
def EndsAlike (hostname : String) : GeneralName → Prop
  | .dns value => ∃ front back domain, value = "*." ++ domain ∧ '.' ∉ front.toList ∧
      '.' ∉ back.toList ∧ hostname = front ++ "." ++ back ++ domain ∧ (front = "" ∨ back ≠ "")
  | _ => False

variable {hostname value : String} {name : GeneralName} {san : Option (List GeneralName)}

theorem count_append_eq_succ_iff {front domain : List Char} :
    (front ++ domain).count '.' = domain.count '.' + 1 ↔
      ∃ before after, front = before ++ '.' :: after ∧ '.' ∉ before ∧ '.' ∉ after := by
  rw [List.count_append, Nat.add_comm, Nat.add_left_cancel_iff]
  constructor
  · intro hone
    have hmem : '.' ∈ front := List.count_pos_iff.mp (by omega)
    obtain ⟨before, after, hsplit, hbefore⟩ := List.eq_append_cons_of_mem hmem
    rw [hsplit, List.count_append, List.count_cons_self] at hone
    exact ⟨before, after, hsplit, hbefore, List.count_eq_zero.mp (by omega)⟩
  · intro hsplit
    obtain ⟨before, after, rfl, hbefore, hafter⟩ := hsplit
    simp [List.count_eq_zero_of_not_mem hbefore, List.count_eq_zero_of_not_mem hafter]

theorem matchesHost_dns_iff : matchesHost hostname (.dns value) = true ↔
    value = hostname ∨ ∃ front back domain, value = "*." ++ domain ∧ '.' ∉ front.toList ∧
      '.' ∉ back.toList ∧ hostname = front ++ "." ++ back ++ domain := by
  rw [matchesHost, Bool.or_eq_true, decide_eq_true_eq, Bool.and_eq_true, Bool.and_eq_true,
    List.isSuffixOf_iff_suffix, decide_eq_true_eq]
  apply or_congr_right
  constructor
  · intro htest
    obtain ⟨hstart, ⟨front, hfront⟩, hcount⟩ := htest
    obtain ⟨domain, hdomain⟩ := List.isPrefixOf_iff_prefix.mp hstart
    have hdrop : value.toList.drop 2 = domain := by
      rw [← hdomain]
      rfl
    rw [hdrop] at hfront hcount
    rw [← hfront, count_append_eq_succ_iff] at hcount
    obtain ⟨before, after, hsplit, hbefore, hafter⟩ := hcount
    refine ⟨String.ofList before, String.ofList after, String.ofList domain,
      String.toList_injective ?_, by simpa using hbefore, by simpa using hafter,
      String.toList_injective ?_⟩
    · rw [← hdomain]
      simp
    · rw [← hfront, hsplit]
      simp
  · intro hsplit
    obtain ⟨front, back, domain, rfl, hfront, hback, rfl⟩ := hsplit
    have hdrop : ("*." ++ domain).toList.drop 2 = domain.toList := by simp
    have hchars : (front ++ "." ++ back ++ domain).toList =
        (front.toList ++ '.' :: back.toList) ++ domain.toList := by simp
    rw [hdrop, hchars, count_append_eq_succ_iff]
    exact ⟨by simp [startsWith], List.suffix_append _ _, _, _, rfl, hfront, hback⟩

theorem matchesHost_iff : matchesHost hostname name = true ↔
    NamesHostPlainly hostname name ∨ EndsAlike hostname name := by
  cases name with
  | dns value =>
    rw [matchesHost_dns_iff, NamesHostPlainly, EndsAlike, or_assoc]
    apply or_congr_right
    constructor
    · intro hsplit
      obtain ⟨front, back, domain, hvalue, hfront, hback, hhost⟩ := hsplit
      by_cases hlabel : front ≠ "" ∧ back = ""
      · left
        refine ⟨front, domain, hvalue, hlabel.1, hfront, ?_⟩
        rw [hhost, hlabel.2, String.append_empty]
      · right
        refine ⟨front, back, domain, hvalue, hfront, hback, hhost, ?_⟩
        by_cases hempty : front = ""
        · exact .inl hempty
        · exact .inr fun hnone => hlabel ⟨hempty, hnone⟩
    · intro heither
      rcases heither with ⟨label, domain, hvalue, _, hlabel, hhost⟩ | halike
      · refine ⟨label, "", domain, hvalue, hlabel, by simp, ?_⟩
        rw [hhost, String.append_empty]
      · obtain ⟨front, back, domain, hvalue, hfront, hback, hhost, _⟩ := halike
        exact ⟨front, back, domain, hvalue, hfront, hback, hhost⟩
  | _ => simp [matchesHost, NamesHostPlainly, EndsAlike]

theorem namesHost_iff : NamesHost hostname name ↔
    NamesHostPlainly hostname name ∨ NamesHostOtherwise hostname name := by
  cases name with
  | dns value =>
    rw [NamesHost, NamesHostPlainly, NamesHostOtherwise]
    by_cases hsame : value = hostname
    · simp [hsame]
    · simp [hsame, or_comm]
  | ip value => simp [NamesHost, NamesHostPlainly, NamesHostOtherwise]
  | _ => simp [NamesHost, NamesHostPlainly, NamesHostOtherwise]

/-- The check agrees with the names of the certificate where one of them is plainly the host's, or
where it is wrong in both ways or in neither: by a wildcard that merely ends alike, and by the
host's own name in other letters or as an address. -/
theorem hostnameMatch_iff :
    (hostnameMatch hostname san = true ↔ ∃ name ∈ san.getD [], NamesHost hostname name) ↔
      (∃ name ∈ san.getD [], NamesHostPlainly hostname name) ∨
        ((∃ name ∈ san.getD [], EndsAlike hostname name) ↔
          ∃ name ∈ san.getD [], NamesHostOtherwise hostname name) := by
  have hcode : hostnameMatch hostname san = true ↔
      (∃ name ∈ san.getD [], NamesHostPlainly hostname name) ∨
        ∃ name ∈ san.getD [], EndsAlike hostname name := by
    rw [hostnameMatch, List.any_eq_true, ← exists_or]
    simp only [matchesHost_iff, and_or_left]
  have hnames : (∃ name ∈ san.getD [], NamesHost hostname name) ↔
      (∃ name ∈ san.getD [], NamesHostPlainly hostname name) ∨
        ∃ name ∈ san.getD [], NamesHostOtherwise hostname name := by
    rw [← exists_or]
    simp only [namesHost_iff, and_or_left]
  rw [hcode, hnames]
  by_cases hplain : ∃ name ∈ san.getD [], NamesHostPlainly hostname name
  · exact iff_of_true (iff_of_true (.inl hplain) (.inl hplain)) (.inl hplain)
  · rw [or_iff_right hplain, or_iff_right hplain, or_iff_right hplain]

/-- A name that ends in the characters of the wildcard's domain, below another domain. -/
theorem hostnameMatch_badexample :
    hostnameMatch "a.badexample.com" (some [.dns "*.example.com"]) = true ∧
      ¬ ∃ name ∈ [GeneralName.dns "*.example.com"], NamesHost "a.badexample.com" name := by
  refine ⟨by decide +kernel, ?_⟩
  rintro ⟨name, hname, hnames⟩
  rw [List.mem_singleton] at hname
  subst hname
  rcases hnames with hlower | ⟨label, domain, hvalue, _, _, hhost⟩
  · revert hlower
    decide +kernel
  · have hdomain : domain.toList = "example.com".toList := by
      have hchars := congrArg String.toList hvalue
      rw [String.toList_append] at hchars
      exact (@List.append_cancel_left _ "*.".toList _ _ hchars).symm
    have hsuffix : ".example.com".toList <:+ "a.badexample.com".toList := by
      refine ⟨label.toList, ?_⟩
      rw [hhost, String.toList_append, String.toList_append, hdomain, List.append_assoc]
      rfl
    revert hsuffix
    decide +kernel

end HostnameMatch

end CaManager
