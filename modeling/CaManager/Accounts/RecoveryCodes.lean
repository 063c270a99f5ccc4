import CaManager.Accounts.Administration
import CaManager.Accounts.PasswordLogin
import CaManager.Library.Machines

/-!
# Recovery codes

Whoever confirms a second factor, or asks for new codes later, is given eight recovery codes,
each good for one login. The routes of the account write them as one text with commas between
them; the login reads the text as JSON.
-/

namespace CaManager

open Library Login

namespace RecoveryCodes

abbrev Drawn := Fin 8 → Fin 4 → Fin 65536

def hexDigitUpper (n : ℕ) : Char := (Nat.digitChar (n % 16)).toUpper

/-- `secrets.token_hex(2).upper()` -/
def hexGroup (n : ℕ) : List Char :=
  [hexDigitUpper (n / 4096), hexDigitUpper (n / 256), hexDigitUpper (n / 16), hexDigitUpper n]

def codeText (groups : Fin 4 → Fin 65536) : String :=
  String.ofList (hexGroup (groups 0) ++ '-' :: (hexGroup (groups 1) ++ '-' ::
    (hexGroup (groups 2) ++ '-' :: hexGroup (groups 3))))

def backupCodes (drawn : Drawn) : List String := List.ofFn fun i => codeText (drawn i)

section Routes

variable [AccountLibrary] (st : Accounts) (now : Time) (id : ℕ)

/-- `enable_2fa`, with the secret that was drawn. -/
def enable2fa (secret : String) : Except Refusal Accounts := do
  let _ ← orThrow (st.users.get? id) ⟨404, "User not found"⟩
  return st.setUser id fun u => { u with totpSecret := some secret }

def confirmedRow (drawn : Drawn) (u : User) : User :=
  { u with totpConfirmed := true, backupCodes := some (joinText ',' (backupCodes drawn)) }

def confirm2fa (code : String) (drawn : Drawn) : Except Refusal Accounts := do
  ensure (code ≠ "") ⟨400, "Verification code required"⟩
  let secret ← orThrow (((st.users.get? id).bind User.totpSecret).filter (· ≠ ""))
    ⟨400, "2FA setup not initiated"⟩
  ensure (AccountLibrary.totpVerify secret code 0 now = true) ⟨400, "Invalid verification code"⟩
  return st.setUser id (confirmedRow drawn)

/-- A recovery code is looked for among the parts of the text between commas. -/
def disable2fa (code backupCode : String) : Except Refusal Accounts := do
  ensure (code ≠ "" ∨ backupCode ≠ "") ⟨400, "Code or backup code required"⟩
  let u ← orThrow (st.users.get? id) ⟨404, "User not found"⟩
  if code ≠ "" then
    let secret ← orThrow (u.totpSecret.filter (· ≠ "")) ⟨400, "2FA not enabled"⟩
    ensure (AccountLibrary.totpVerify secret code 0 now = true) ⟨400, "Invalid verification code"⟩
  else
    ensure (backupCode ∈ splitText ',' (u.backupCodes.getD "")) ⟨400, "Invalid backup code"⟩
  return st.setUser id fun u =>
    { u with totpConfirmed := false, totpSecret := none, backupCodes := none }

def reissuedRow (drawn : Drawn) (u : User) : User :=
  { u with backupCodes := some (joinText ',' (backupCodes drawn)) }

def regenerateRecoveryCodes (code : String) (drawn : Drawn) : Except Refusal Accounts := do
  ensure (code ≠ "") ⟨400, "2FA code required"⟩
  let u ← orThrow ((st.users.get? id).filter User.totpConfirmed) ⟨400, "2FA not enabled"⟩
  let secret ← orThrow u.totpSecret ⟨500, "Internal server error"⟩
  ensure (AccountLibrary.totpVerify secret code 0 now = true) ⟨400, "Invalid verification code"⟩
  return st.setUser id (reissuedRow drawn)

end Routes

/-- What an authenticated user asks of the second factor, the two steps of a login, or time that
passes. -/
inductive Event
  | enable (id : ℕ) (secret : String)
  | confirm (id : ℕ) (code : String) (drawn : Drawn)
  | disable (id : ℕ) (code backupCode : String)
  | regenerate (id : ℕ) (code : String) (drawn : Drawn)
  | loginPassword (cookie username password : String)
  | login2fa (cookie code : String)
  | elapse (seconds : ℕ)

/-- The state, with the codes of each user that were issued last and have not been used, and those
that were used or replaced. -/
structure History where
  state : LoginState
  issued : ℕ → List String := fun _ => []
  former : ℕ → List String := fun _ => []

namespace History

def replace (h : History) (id : ℕ) (codes : List String) : History :=
  { h with
    issued := Function.update h.issued id codes
    former := Function.update h.former id (h.former id ++ h.issued id) }

def spend (h : History) (id : ℕ) (code : String) : History :=
  if code ∈ h.issued id then
    { h with
      issued := Function.update h.issued id ((h.issued id).erase code)
      former := Function.update h.former id (h.former id ++ [code]) }
  else h

def withAccounts (h : History) (accounts : Accounts) : History :=
  { h with state := { h.state with accounts } }

end History

variable [AccountLibrary]

/-- The code signs the user in, once the password has been checked and while nothing is locked. -/
def Accepted (s : LoginState) (id : ℕ) (code : String) : Prop :=
  (login2fa ⟨s.accounts, { pending2fa := some ⟨id, "", "password"⟩ }, fun _ => none, s.now⟩
    code).login = some id

def step (h : History) : Event → History
  | .enable id secret =>
    match enable2fa h.state.accounts id secret with
    | .ok st => h.withAccounts st
    | .error _ => h
  | .confirm id code drawn =>
    match confirm2fa h.state.accounts h.state.now id code drawn with
    | .ok st => (h.withAccounts st).replace id (backupCodes drawn)
    | .error _ => h
  | .disable id code backupCode =>
    match disable2fa h.state.accounts h.state.now id code backupCode with
    | .ok st => (h.withAccounts st).replace id []
    | .error _ => h
  | .regenerate id code drawn =>
    match regenerateRecoveryCodes h.state.accounts h.state.now id code drawn with
    | .ok st => (h.withAccounts st).replace id (backupCodes drawn)
    | .error _ => h
  | .loginPassword cookie username password =>
    { h with state := h.state.serve ⟨0, cookie, .loginPassword username password⟩ }
  | .login2fa cookie code =>
    let r : LoginRequest := ⟨0, cookie, .login2fa code⟩
    let h' : History := { h with state := h.state.serve r }
    match (h.state.answer r).login with
    | some id => h'.spend id code
    | none => h'
  | .elapse seconds => { h with state := { h.state with now := h.state.now + seconds } }

/-- The codes that were issued last and have not been used are accepted, and no others that ever
were issued. -/
def Exact (h : History) : Prop :=
  ∀ id u, h.state.accounts.users.get? id = some u → u.active = true →
    (∀ code ∈ h.issued id, Accepted h.state id code) ∧
      ∀ code ∈ h.former id, code ∉ h.issued id → ¬Accepted h.state id code

def Issues (h : History) : Event → Prop
  | .confirm id code _ =>
    ∃ u secret, h.state.accounts.users.get? id = some u ∧ u.active = true ∧ code ≠ "" ∧
      u.totpSecret = some secret ∧ secret ≠ "" ∧
      AccountLibrary.totpVerify secret code 0 h.state.now = true
  | .regenerate id code _ =>
    ∃ u secret, h.state.accounts.users.get? id = some u ∧ u.active = true ∧ code ≠ "" ∧
      u.totpConfirmed = true ∧ u.totpSecret = some secret ∧
      AccountLibrary.totpVerify secret code 0 h.state.now = true
  | _ => False

def isHexUpper (c : Char) : Bool := '0' ≤ c && c ≤ '9' || 'A' ≤ c && c ≤ 'F'

/-- What is relied on: of the JSON texts only numbers begin like a code, and numbers have no
commas; and a one-time code has no hyphens. -/
structure Documented : Prop where
  loads_eq_none : ∀ c rest, isHexUpper c = true → ',' ∈ rest →
    AccountLibrary.loads (String.ofList (c :: rest)) = none
  notMem_of_totpVerify : ∀ secret code window now,
    AccountLibrary.totpVerify secret code window now = true → '-' ∉ code.toList

section Texts

omit [AccountLibrary]

theorem isHexUpper_hexDigitUpper (n : ℕ) : isHexUpper (hexDigitUpper n) = true := by
  have hall : ∀ d < 16, isHexUpper (Nat.digitChar d).toUpper = true := by decide
  exact hall (n % 16) (Nat.mod_lt n (by decide))

theorem hyphen_mem_codeText (groups : Fin 4 → Fin 65536) : '-' ∈ (codeText groups).toList := by
  simp [codeText]

theorem exists_cons_of_joinText (drawn : Drawn) :
    ∃ c rest, isHexUpper c = true ∧ ',' ∈ rest ∧
      joinText ',' (backupCodes drawn) = String.ofList (c :: rest) := by
  obtain ⟨codes, hcodes⟩ : ∃ codes, backupCodes drawn =
      codeText (drawn 0) :: codeText (drawn 1) :: codes := ⟨_, rfl⟩
  have hchars : (joinText ',' (codeText (drawn 0) :: codeText (drawn 1) :: codes)).toList =
      (codeText (drawn 0)).toList ++ ',' :: (joinText ',' (codeText (drawn 1) :: codes)).toList :=
    toList_joinText_cons_cons
  rw [← hcodes, codeText, String.toList_ofList] at hchars
  refine ⟨hexDigitUpper (drawn 0 0 / 4096), _, isHexUpper_hexDigitUpper _, ?_,
    String.toList_injective (hchars.trans (String.toList_ofList).symm)⟩
  exact List.mem_append_right _ List.mem_cons_self

end Texts

section Acceptance

variable {s : LoginState} {id : ℕ} {u : User} {code secret : String}

/-- Of an active user's codes, the login takes those that are valid now, and those that it reads
from the stored text. -/
theorem accepted_iff (hu : s.accounts.users.get? id = some u) (hactive : u.active = true)
    (hsecret : u.totpSecret = some secret) (hcode : code ≠ "") :
    Accepted s id code ↔ AccountLibrary.totpVerify secret code 1 s.now = true ∨
      ∃ remaining, takeRecoveryCode u.backupCodes code = .used remaining := by
  unfold Accepted
  rw [login2fa_eq_some]
  constructor
  · rintro ⟨_, v, secret', ⟨⟩, _, _, hv, _, hsecret', hshown, _⟩
    obtain rfl := Option.some.inj (hu.symm.trans hv)
    obtain rfl := Option.some.inj (hsecret.symm.trans hsecret')
    exact hshown
  · exact fun hshown => ⟨_, u, secret, rfl, rfl, hcode, hu, hactive, hsecret, hshown,
      Table.key_of_get? hu⟩

theorem not_accepted_of_joinText (hdoc : Documented) {drawn : Drawn}
    (hu : s.accounts.users.get? id = some u) (hactive : u.active = true)
    (hsecret : u.totpSecret = some secret)
    (hcodes : u.backupCodes = some (joinText ',' (backupCodes drawn)))
    (hcode : code ∈ backupCodes drawn) : ¬Accepted s id code := by
  obtain ⟨i, rfl⟩ := List.mem_ofFn.mp hcode
  have hhyphen := hyphen_mem_codeText (drawn i)
  have hne : codeText (drawn i) ≠ "" := by
    intro h
    rw [h] at hhyphen
    exact absurd hhyphen (by decide)
  obtain ⟨c, rest, hc, hcomma, htext⟩ := exists_cons_of_joinText drawn
  have hnonempty : String.ofList (c :: rest) ≠ "" := by
    intro h
    have hchars := congrArg String.toList h
    rw [String.toList_ofList] at hchars
    cases hchars
  have htake : takeRecoveryCode u.backupCodes (codeText (drawn i)) = .invalid := by
    rw [hcodes, htext]
    unfold takeRecoveryCode
    split
    next h => cases h
    next h => exact absurd (Option.some.inj h) hnonempty
    next stored _ h =>
      obtain rfl := Option.some.inj h
      rw [hdoc.loads_eq_none c rest hc hcomma]
  rw [accepted_iff hu hactive hsecret hne, htake]
  rintro (htotp | ⟨_, h⟩)
  · exact hdoc.notMem_of_totpVerify _ _ _ _ htotp hhyphen
  · cases h

end Acceptance

section Activity

variable {st st' : Accounts} {now : Time} {id : ℕ} {code backupCode secret : String}
  {drawn : Drawn} {c : LoginContext} {username password : String}

def SameActive (st st' : Accounts) : Prop :=
  ∀ id, (st'.users.get? id).map User.active = (st.users.get? id).map User.active

omit [AccountLibrary] in
theorem sameActive_setUser {f : User → User} (hf : ∀ u, (f u).active = u.active) :
    SameActive st (st.setUser id f) := by
  intro id'
  change ((st.users.update id f).get? id').map User.active = _
  rw [Table.get?_update, Option.map_map]
  congr 1
  funext u
  simp only [Function.comp_apply, withKey_user]
  split_ifs
  · exact hf u
  · rfl

omit [AccountLibrary] in
theorem enable2fa_eq_ok (h : enable2fa st id secret = .ok st') :
    st' = st.setUser id fun u => { u with totpSecret := some secret } := by
  simp only [enable2fa, bind_eq_ok, pure_eq_ok] at h
  obtain ⟨_, _, rfl⟩ := h
  rfl

theorem confirm2fa_eq_ok : confirm2fa st now id code drawn = .ok st' ↔
    ∃ u secret, st.users.get? id = some u ∧ code ≠ "" ∧ u.totpSecret = some secret ∧
      secret ≠ "" ∧ AccountLibrary.totpVerify secret code 0 now = true ∧
      st' = st.setUser id (confirmedRow drawn) := by
  simp only [confirm2fa, bind_eq_ok, ensure_eq_ok, orThrow_eq_ok, pure_eq_ok,
    Option.filter_eq_some_iff, Option.bind_eq_some_iff, decide_eq_true_eq]
  constructor
  · rintro ⟨_, hcode, secret, ⟨⟨u, hu, hsecret⟩, hne⟩, _, htotp, rfl⟩
    exact ⟨u, secret, hu, hcode, hsecret, hne, htotp, rfl⟩
  · rintro ⟨u, secret, hu, hcode, hsecret, hne, htotp, rfl⟩
    exact ⟨(), hcode, secret, ⟨⟨u, hu, hsecret⟩, hne⟩, (), htotp, rfl⟩

theorem regenerateRecoveryCodes_eq_ok : regenerateRecoveryCodes st now id code drawn = .ok st' ↔
    ∃ u secret, st.users.get? id = some u ∧ code ≠ "" ∧ u.totpConfirmed = true ∧
      u.totpSecret = some secret ∧ AccountLibrary.totpVerify secret code 0 now = true ∧
      st' = st.setUser id (reissuedRow drawn) := by
  simp only [regenerateRecoveryCodes, bind_eq_ok, ensure_eq_ok, orThrow_eq_ok, pure_eq_ok,
    Option.filter_eq_some_iff]
  constructor
  · rintro ⟨_, hcode, u, ⟨hu, hconfirmed⟩, secret, hsecret, _, htotp, rfl⟩
    exact ⟨u, secret, hu, hcode, hconfirmed, hsecret, htotp, rfl⟩
  · rintro ⟨u, secret, hu, hcode, hconfirmed, hsecret, htotp, rfl⟩
    exact ⟨(), hcode, u, ⟨hu, hconfirmed⟩, secret, hsecret, (), htotp, rfl⟩

theorem disable2fa_eq_ok (h : disable2fa st now id code backupCode = .ok st') :
    st' = st.setUser id fun u =>
      { u with totpConfirmed := false, totpSecret := none, backupCodes := none } := by
  simp only [disable2fa, bind_eq_ok] at h
  obtain ⟨_, _, u, _, h⟩ := h
  split_ifs at h
  · simp only [bind_eq_ok, pure_eq_ok] at h
    obtain ⟨_, _, _, _, rfl⟩ := h
    rfl
  · simp only [bind_eq_ok, pure_eq_ok] at h
    obtain ⟨_, _, rfl⟩ := h
    rfl

/-- What a user row says about the second factor, and whether the user is active. -/
def secondFactor (u : User) : Bool × Option String × Bool :=
  (u.active, u.totpSecret, u.totpConfirmed)

def SameFactor (st st' : Accounts) : Prop :=
  ∀ id, (st'.users.get? id).map secondFactor = (st.users.get? id).map secondFactor

omit [AccountLibrary] in
theorem SameFactor.sameActive (h : SameFactor st st') : SameActive st st' := by
  intro id
  have hactive := congrArg (Option.map Prod.fst) (h id)
  rw [Option.map_map, Option.map_map] at hactive
  exact hactive

omit [AccountLibrary] in
theorem sameFactor_setUser {f : User → User} (hf : ∀ u, secondFactor (f u) = secondFactor u) :
    SameFactor st (st.setUser id f) := by
  intro id'
  change ((st.users.update id f).get? id').map secondFactor = _
  rw [Table.get?_update, Option.map_map]
  congr 1
  funext u
  simp only [Function.comp_apply, withKey_user]
  split_ifs
  · exact hf u
  · rfl

theorem sameFactor_loginPassword :
    SameFactor c.accounts (loginPassword c username password).accounts := by
  unfold loginPassword
  split_ifs
  · exact fun _ => rfl
  · split
    next => exact fun _ => rfl
    next u _ =>
      split_ifs
      · exact fun _ => rfl
      · exact sameFactor_setUser fun _ => rfl
      · exact sameFactor_setUser fun _ => rfl
      · exact sameFactor_setUser fun _ => rfl

theorem sameFactor_login2fa : SameFactor c.accounts (login2fa c code).accounts := by
  unfold login2fa
  split
  next => exact fun _ => rfl
  next pending _ =>
    generalize check2faLockout c.codeFailures pending.userId c.now = checked
    obtain ⟨locked, failures⟩ := checked
    dsimp only
    split_ifs
    · exact fun _ => rfl
    · exact fun _ => rfl
    · split
      next => exact fun _ => rfl
      next u _ =>
        split_ifs
        · exact fun _ => rfl
        · split
          next => exact fun _ => rfl
          next secret _ =>
            split_ifs
            · exact fun _ => rfl
            · split
              next => exact sameFactor_setUser fun _ => rfl
              next => exact fun _ => rfl
              next => exact fun _ => rfl

theorem active_of_login2fa (h : (login2fa c code).login = some id) :
    ∃ u, c.accounts.users.get? id = some u ∧ u.active = true := by
  obtain ⟨pending, u, secret, _, _, _, hu, hactive, _, _, rfl⟩ := login2fa_eq_some.mp h
  rw [← Table.key_of_get? hu] at hu
  exact ⟨u, hu, hactive⟩

end Activity

section Runs

variable {h : History} {e : Event}

def Quiet (h : History) : Prop :=
  ∀ id u, h.state.accounts.users.get? id = some u → u.active = true →
    h.issued id = [] ∧ h.former id = []

theorem exact_of_quiet (hquiet : Quiet h) : Exact h := by
  intro id u hu hactive
  obtain ⟨hissued, hformer⟩ := hquiet id u hu hactive
  rw [hissued, hformer]
  exact ⟨fun code hcode => absurd hcode List.not_mem_nil,
    fun code hcode => absurd hcode List.not_mem_nil⟩

omit [AccountLibrary] in
theorem Quiet.of_sameActive {h' : History} (hquiet : Quiet h)
    (hactive : SameActive h.state.accounts h'.state.accounts)
    (hcodes : ∀ id u, h.state.accounts.users.get? id = some u → u.active = true →
      h'.issued id = h.issued id ∧ h'.former id = h.former id) : Quiet h' := by
  intro id u hu huactive
  have hsame := hactive id
  rw [hu, Option.map_some, huactive] at hsame
  obtain ⟨v, hv, hvactive⟩ := Option.map_eq_some_iff.mp hsame.symm
  rw [(hcodes id v hv hvactive).1, (hcodes id v hv hvactive).2]
  exact hquiet id v hv hvactive

omit [AccountLibrary] in
theorem Quiet.replace {st : Accounts} {id : ℕ} {codes : List String} (hquiet : Quiet h)
    (hactive : SameActive h.state.accounts st)
    (hcodes : ∀ u, h.state.accounts.users.get? id = some u → u.active = true → codes = []) :
    Quiet ((h.withAccounts st).replace id codes) := by
  refine hquiet.of_sameActive hactive fun id' u hu huactive => ?_
  obtain ⟨hissued, hformer⟩ := hquiet id' u hu huactive
  by_cases hid : id' = id
  · subst hid
    simp [History.replace, History.withAccounts, hissued, hformer, hcodes u hu huactive]
  · simp [History.replace, History.withAccounts, Function.update_of_ne hid]

theorem quiet_step (hquiet : Quiet h) (hissues : ¬Issues h e) : Quiet (step h e) := by
  cases e with
  | enable id secret =>
    simp only [step]
    split
    next st hok =>
      rw [enable2fa_eq_ok hok]
      exact hquiet.of_sameActive (sameActive_setUser fun _ => rfl) fun _ _ _ _ => ⟨rfl, rfl⟩
    next => exact hquiet
  | confirm id code drawn =>
    simp only [step]
    split
    next st hok =>
      obtain ⟨u, secret, hu, hcode, hsecret, hne, htotp, rfl⟩ := confirm2fa_eq_ok.mp hok
      refine hquiet.replace (sameActive_setUser fun _ => rfl) fun v hv hvactive => ?_
      obtain rfl := Option.some.inj (hu.symm.trans hv)
      exact absurd ⟨u, secret, hu, hvactive, hcode, hsecret, hne, htotp⟩ hissues
    next => exact hquiet
  | disable id code backupCode =>
    simp only [step]
    split
    next st hok =>
      rw [disable2fa_eq_ok hok]
      exact hquiet.replace (sameActive_setUser fun _ => rfl) fun _ _ _ => rfl
    next => exact hquiet
  | regenerate id code drawn =>
    simp only [step]
    split
    next st hok =>
      obtain ⟨u, secret, hu, hcode, hconfirmed, hsecret, htotp, rfl⟩ :=
        regenerateRecoveryCodes_eq_ok.mp hok
      refine hquiet.replace (sameActive_setUser fun _ => rfl) fun v hv hvactive => ?_
      obtain rfl := Option.some.inj (hu.symm.trans hv)
      exact absurd ⟨u, secret, hu, hvactive, hcode, hconfirmed, hsecret, htotp⟩ hissues
    next => exact hquiet
  | loginPassword cookie username password =>
    exact hquiet.of_sameActive sameFactor_loginPassword.sameActive fun _ _ _ _ => ⟨rfl, rfl⟩
  | login2fa cookie code =>
    simp only [step]
    split
    next id hlogin =>
      -- nobody who can sign in has a code to spend
      obtain ⟨u, hu, hactive⟩ := active_of_login2fa hlogin
      have hspent : code ∉ h.issued id := by
        rw [(hquiet id u hu hactive).1]
        exact List.not_mem_nil
      unfold History.spend
      rw [if_neg hspent]
      exact hquiet.of_sameActive sameFactor_login2fa.sameActive fun _ _ _ _ => ⟨rfl, rfl⟩
    next => exact hquiet.of_sameActive sameFactor_login2fa.sameActive fun _ _ _ _ => ⟨rfl, rfl⟩
  | elapse seconds => exact hquiet.of_sameActive (fun _ => rfl) fun _ _ _ _ => ⟨rfl, rfl⟩

theorem not_exact_of_given (hdoc : Documented) {f : User → User} {id : ℕ} {u : User}
    {secret : String} {drawn : Drawn} (hu : h.state.accounts.users.get? id = some u)
    (hactive : (f u).active = true) (hsecret : (f u).totpSecret = some secret)
    (hcodes : (f u).backupCodes = some (joinText ',' (backupCodes drawn))) :
    ¬Exact ((h.withAccounts (h.state.accounts.setUser id f)).replace id (backupCodes drawn)) := by
  intro hexact
  have hu' : (h.state.accounts.setUser id f).users.get? id = some { f u with id } :=
    Table.get?_update_self hu
  have hcode : codeText (drawn 0) ∈ backupCodes drawn := List.mem_ofFn.mpr ⟨0, rfl⟩
  have hissued : codeText (drawn 0) ∈ Function.update h.issued id (backupCodes drawn) id := by
    rwa [Function.update_self]
  have haccepted := (hexact id _ hu' hactive).1 _ hissued
  exact not_accepted_of_joinText (u := { f u with id }) hdoc hu' hactive hsecret hcodes hcode
    haccepted

theorem not_exact_of_issues (hdoc : Documented) (hissues : Issues h e) : ¬Exact (step h e) := by
  cases e with
  | confirm id code drawn =>
    obtain ⟨u, secret, hu, hactive, hcode, hsecret, hne, htotp⟩ := hissues
    have hok : confirm2fa h.state.accounts h.state.now id code drawn =
        .ok (h.state.accounts.setUser id (confirmedRow drawn)) :=
      confirm2fa_eq_ok.mpr ⟨u, secret, hu, hcode, hsecret, hne, htotp, rfl⟩
    simp only [step, hok]
    exact not_exact_of_given hdoc hu hactive hsecret rfl
  | regenerate id code drawn =>
    obtain ⟨u, secret, hu, hactive, hcode, hconfirmed, hsecret, htotp⟩ := hissues
    have hok : regenerateRecoveryCodes h.state.accounts h.state.now id code drawn =
        .ok (h.state.accounts.setUser id (reissuedRow drawn)) :=
      regenerateRecoveryCodes_eq_ok.mpr
        ⟨u, secret, hu, hcode, hconfirmed, hsecret, htotp, rfl⟩
    simp only [step, hok]
    exact not_exact_of_given hdoc hu hactive hsecret rfl
  | _ => exact absurd hissues not_false

/-- From any state in which no codes were issued, the codes are what they should be in every state
of a run exactly if no active user is ever given any. -/
theorem exact_run_iff (hdoc : Documented) (s : LoginState) (es : List Event) :
    (∀ pre, pre <+: es → Exact (run step { state := s } pre)) ↔
      Meets step (fun h e => ¬Issues h e) { state := s } es := by
  have hquiet : Quiet { state := s } := fun _ _ _ _ => ⟨rfl, rfl⟩
  refine forall_prefix_iff_meets (P := Exact) (I := Quiet) ?_ ?_ es hquiet (exact_of_quiet hquiet)
  · intro h e hquiet _
    constructor
    · exact fun hexact hissues => not_exact_of_issues hdoc hissues hexact
    · exact fun hissues => exact_of_quiet (quiet_step hquiet hissues)
  · exact fun h e hquiet _ hissues => quiet_step hquiet hissues

end Runs

section Sample

omit [AccountLibrary]

@[reducible] def oneCodeLibrary : AccountLibrary where
  checkPasswordHash hash password := hash = password
  totpVerify _ code _ _ := code = "123456"
  loads text := if text = "[]" then some (.array []) else none
  dumps _ := "[]"

theorem documented_oneCodeLibrary :
    let _ := oneCodeLibrary
    Documented := by
  intro _
  refine ⟨fun c rest hc _ => if_neg fun h => ?_, fun _ code _ _ h => ?_⟩
  · have hchars := congrArg String.toList h
    rw [String.toList_ofList] at hchars
    rw [(List.cons.inj hchars).1] at hc
    exact absurd hc (by decide)
  · have hcode : code = "123456" := of_decide_eq_true h
    rw [hcode]
    decide

def enablingState : LoginState where
  accounts :=
    { users := (∅ : Table User).insert
        { username := "root", email := "root@ca", passwordHash := "secret"
          totpSecret := some "S" } }

def sampleDrawn : Drawn := fun i j => Fin.ofNat 65536 (4096 * i + j)

theorem exact_run_enablingState :
    let _ := oneCodeLibrary
    (∀ pre, pre <+: [Event.confirm 1 "123456" sampleDrawn] →
        Exact (run step { state := enablingState } pre)) ↔
      Meets step (fun h e => ¬Issues h e) { state := enablingState }
        [Event.confirm 1 "123456" sampleDrawn] := by
  intro _
  exact exact_run_iff documented_oneCodeLibrary enablingState _

/-- The codes that the user has just been given are refused. -/
theorem fresh_code_refused :
    let _ := oneCodeLibrary
    let h := step { state := enablingState } (.confirm 1 "123456" sampleDrawn)
    "0000-0001-0002-0003" ∈ h.issued 1 ∧
      ¬Accepted h.state 1 "0000-0001-0002-0003" ∧ ¬Exact h := by
  intro _ h
  have hissued : "0000-0001-0002-0003" ∈ h.issued 1 := by decide +kernel
  have hrefused : ¬Accepted h.state 1 "0000-0001-0002-0003" := by
    unfold Accepted
    decide +kernel
  have hroot : (h.state.accounts.users.get? 1).map User.active = some true := by decide +kernel
  obtain ⟨u, hu, hactive⟩ := Option.map_eq_some_iff.mp hroot
  exact ⟨hissued, hrefused, fun hexact => hrefused ((hexact 1 u hu hactive).1 _ hissued)⟩

end Sample

end RecoveryCodes

end CaManager
