import CaManager.Accounts.RecoveryCodes

/-!
# Enrolling a second factor

The secret of a second factor and the mark that it was confirmed are two columns of the user's
row. An enrolment writes the first and only its confirmation the second, so the two belong
together exactly as long as nobody whose factor is confirmed begins anew.
-/

namespace CaManager

open Library Login

namespace TwoFactor

open RecoveryCodes (Accepted Event secondFactor SameFactor)

/-- The state, with the secret of which each user last showed a valid code. -/
structure Enrolment where
  state : LoginState
  proved : ℕ → Option String

def secretOf (s : LoginState) (id : ℕ) : Option String :=
  (s.accounts.users.get? id).bind User.totpSecret

def Enrolment.start (s : LoginState) : Enrolment where
  state := s
  proved id := ((s.accounts.users.get? id).filter User.totpConfirmed).bind User.totpSecret

/-- What is marked as confirmed is the secret of which the user last showed a code. -/
def Proven (m : Enrolment) : Prop :=
  ∀ id u, m.state.accounts.users.get? id = some u → u.totpConfirmed = true →
    u.totpSecret = m.proved id

variable [AccountLibrary]

def shownBy (s : LoginState) : Event → Option ℕ
  | .confirm id code drawn =>
    if (RecoveryCodes.confirm2fa s.accounts s.now id code drawn).isOk then some id else none
  | .regenerate id code drawn =>
    if (RecoveryCodes.regenerateRecoveryCodes s.accounts s.now id code drawn).isOk then some id
    else none
  | .disable id code backupCode =>
    if code ≠ "" ∧ (RecoveryCodes.disable2fa s.accounts s.now id code backupCode).isOk then some id
    else none
  | .login2fa cookie code =>
    (s.answer ⟨0, cookie, .login2fa code⟩).login.filter fun id =>
      (secretOf s id).any fun secret => AccountLibrary.totpVerify secret code 1 s.now
  | _ => none

def step (m : Enrolment) (e : Event) : Enrolment where
  state := (RecoveryCodes.step { state := m.state } e).state
  proved :=
    match shownBy m.state e with
    | some id => Function.update m.proved id (secretOf m.state id)
    | none => m.proved

/-- `disable_2fa` takes the code, or the recovery code. -/
def AcceptedToDisable (s : LoginState) (id : ℕ) (code backupCode : String) : Prop :=
  ∃ st, RecoveryCodes.disable2fa s.accounts s.now id code backupCode = .ok st

/-- Whose factor is confirmed, for them both routes take what they took before. -/
def SameCodes (s s' : LoginState) : Prop :=
  ∀ id u, s.accounts.users.get? id = some u → u.totpConfirmed = true →
    (∀ code, Accepted s' id code ↔ Accepted s id code) ∧
      ∀ code backupCode, AcceptedToDisable s' id code backupCode ↔
        AcceptedToDisable s id code backupCode

def EnrolsQuietly (m : Enrolment) : Event → Prop
  | .enable id secret => SameCodes m.state (step m (.enable id secret)).state
  | _ => True

/-- A user whose factor is confirmed begins a new enrolment, with another secret. -/
def Restarts (m : Enrolment) : Event → Prop
  | .enable id secret =>
    ∃ u, m.state.accounts.users.get? id = some u ∧ u.totpConfirmed = true ∧
      u.totpSecret ≠ some secret
  | _ => False

section Secrets

variable {m : Enrolment} {e : Event} {st : Accounts} {id id' : ℕ} {u' : User}

omit [AccountLibrary] in
theorem exists_of_setUser {f : User → User} (h : (st.setUser id f).users.get? id' = some u') :
    (id ≠ id' ∧ st.users.get? id' = some u') ∨
      id = id' ∧ ∃ u, st.users.get? id' = some u ∧ u' = { f u with id := id' } := by
  by_cases hid : id = id'
  · subst hid
    obtain ⟨u, hu, rfl⟩ := Option.map_eq_some_iff.mp (Table.get?_update.symm.trans h)
    rw [if_pos (Table.key_of_get? hu)]
    exact .inr ⟨rfl, u, hu, rfl⟩
  · exact .inl ⟨hid, (Table.get?_update_of_ne hid).symm.trans h⟩

theorem Proven.step (hproven : Proven m)
    (hkept : ∀ id u', (step m e).state.accounts.users.get? id = some u' →
      u'.totpConfirmed = true → u'.totpSecret = secretOf m.state id ∧
        (shownBy m.state e = some id ∨
          ∃ u, m.state.accounts.users.get? id = some u ∧ u.totpConfirmed = true)) :
    Proven (step m e) := by
  intro id u' hu' hconfirmed
  obtain ⟨hsecret, hshown⟩ := hkept id u' hu' hconfirmed
  have hproved : (TwoFactor.step m e).proved id = secretOf m.state id ∨
      shownBy m.state e ≠ some id ∧ (TwoFactor.step m e).proved id = m.proved id := by
    simp only [TwoFactor.step]
    cases shownBy m.state e with
    | none => exact .inr ⟨nofun, rfl⟩
    | some shown =>
      by_cases hid : id = shown
      · subst hid
        exact .inl (Function.update_self id _ m.proved)
      · refine .inr ⟨fun h => hid ?_, Function.update_of_ne hid _ _⟩
        exact (Option.some.inj h).symm
  rcases hproved with hproved | ⟨hnot, hproved⟩
  · rw [hsecret, hproved]
  · obtain ⟨u, hu, huconfirmed⟩ := hshown.resolve_left hnot
    rw [hsecret, hproved, secretOf, hu]
    exact hproven id u hu huconfirmed

theorem Proven.of_sameFactor (hproven : Proven m)
    (hsame : SameFactor m.state.accounts (TwoFactor.step m e).state.accounts) :
    Proven (TwoFactor.step m e) := by
  refine hproven.step fun id u' hu' hconfirmed => ?_
  have hfactor := hsame id
  rw [hu', Option.map_some] at hfactor
  obtain ⟨u, hu, hequal⟩ := Option.map_eq_some_iff.mp hfactor.symm
  obtain ⟨-, hsecret, hmark⟩ : u.active = u'.active ∧ u.totpSecret = u'.totpSecret ∧
      u.totpConfirmed = u'.totpConfirmed := by
    simpa [secondFactor] using hequal
  refine ⟨?_, .inr ⟨u, hu, hmark.trans hconfirmed⟩⟩
  rw [secretOf, hu, ← hsecret]
  rfl

theorem Proven.of_setUser {f : User → User} (hproven : Proven m)
    (hstate : (TwoFactor.step m e).state.accounts = m.state.accounts.setUser id f)
    (hrow : ∀ u, m.state.accounts.users.get? id = some u → (f u).totpConfirmed = true →
      (f u).totpSecret = u.totpSecret ∧
        (shownBy m.state e = some id ∨ u.totpConfirmed = true)) :
    Proven (TwoFactor.step m e) := by
  refine hproven.step fun id' u' hu' hconfirmed => ?_
  rw [hstate] at hu'
  obtain ⟨_, hu'⟩ | ⟨rfl, u, hu, rfl⟩ := exists_of_setUser hu'
  · exact ⟨by rw [secretOf, hu']; rfl, .inr ⟨u', hu', hconfirmed⟩⟩
  · obtain ⟨hsecret, hshown⟩ := hrow u hu hconfirmed
    refine ⟨?_, hshown.imp_right fun h => ⟨u, hu, h⟩⟩
    rw [secretOf, hu]
    exact hsecret

theorem proven_step (hproven : Proven m) (hrestarts : ¬Restarts m e) :
    Proven (TwoFactor.step m e) := by
  cases e with
  | enable id secret =>
    cases hok : RecoveryCodes.enable2fa m.state.accounts id secret with
    | error _ =>
      exact hproven.of_sameFactor (by simp [TwoFactor.step, RecoveryCodes.step, hok, SameFactor])
    | ok st =>
      obtain rfl := RecoveryCodes.enable2fa_eq_ok hok
      refine hproven.of_setUser (f := fun u => { u with totpSecret := some secret })
        (by simp only [TwoFactor.step, RecoveryCodes.step, hok]; rfl)
        fun u hu hconfirmed => ⟨?_, .inr hconfirmed⟩
      by_contra hne
      exact hrestarts ⟨u, hu, hconfirmed, fun h => hne h.symm⟩
  | confirm id code drawn =>
    cases hok : RecoveryCodes.confirm2fa m.state.accounts m.state.now id code drawn with
    | error _ =>
      exact hproven.of_sameFactor (by simp [TwoFactor.step, RecoveryCodes.step, hok, SameFactor])
    | ok st =>
      have hshown : shownBy m.state (.confirm id code drawn) = some id := by
        simp [shownBy, hok, Except.isOk, Except.toBool]
      obtain ⟨_, _, _, _, _, _, _, rfl⟩ := RecoveryCodes.confirm2fa_eq_ok.mp hok
      exact hproven.of_setUser (f := RecoveryCodes.confirmedRow drawn)
        (by simp only [TwoFactor.step, RecoveryCodes.step, hok]; rfl)
        fun u hu hconfirmed => ⟨rfl, .inl hshown⟩
  | disable id code backupCode =>
    cases hok : RecoveryCodes.disable2fa m.state.accounts m.state.now id code backupCode with
    | error _ =>
      exact hproven.of_sameFactor (by simp [TwoFactor.step, RecoveryCodes.step, hok, SameFactor])
    | ok st =>
      obtain rfl := RecoveryCodes.disable2fa_eq_ok hok
      refine hproven.of_setUser
        (f := fun u => { u with totpConfirmed := false, totpSecret := none, backupCodes := none })
        (by simp only [TwoFactor.step, RecoveryCodes.step, hok]; rfl) fun u hu hconfirmed => ?_
      cases hconfirmed
  | regenerate id code drawn =>
    cases hok : RecoveryCodes.regenerateRecoveryCodes m.state.accounts m.state.now id code drawn
      with
    | error _ =>
      exact hproven.of_sameFactor (by simp [TwoFactor.step, RecoveryCodes.step, hok, SameFactor])
    | ok st =>
      obtain ⟨_, _, _, _, _, _, _, rfl⟩ := RecoveryCodes.regenerateRecoveryCodes_eq_ok.mp hok
      exact hproven.of_setUser (f := RecoveryCodes.reissuedRow drawn)
        (by simp only [TwoFactor.step, RecoveryCodes.step, hok]; rfl)
        fun u hu hconfirmed => ⟨rfl, .inr hconfirmed⟩
  | loginPassword cookie username password =>
    exact hproven.of_sameFactor RecoveryCodes.sameFactor_loginPassword
  | login2fa cookie code =>
    have hstate : (TwoFactor.step m (.login2fa cookie code)).state.accounts =
        (m.state.answer ⟨0, cookie, .login2fa code⟩).accounts := by
      simp only [TwoFactor.step, RecoveryCodes.step]
      split
      · unfold RecoveryCodes.History.spend
        split_ifs
        · rfl
        · rfl
      · rfl
    refine hproven.of_sameFactor ?_
    rw [hstate]
    exact RecoveryCodes.sameFactor_login2fa
  | elapse seconds => exact hproven.of_sameFactor fun _ => rfl

theorem not_proven_of_restarts (hproven : Proven m) (hrestarts : Restarts m e) :
    ¬Proven (TwoFactor.step m e) := by
  cases e with
  | enable id secret =>
    obtain ⟨u, hu, hconfirmed, hne⟩ := hrestarts
    intro h
    have hstep : TwoFactor.step m (.enable id secret) =
        { m with state :=
          { m.state with accounts :=
            m.state.accounts.setUser id fun u => { u with totpSecret := some secret } } } := by
      simp [TwoFactor.step, shownBy, RecoveryCodes.step, RecoveryCodes.enable2fa, hu,
        RecoveryCodes.History.withAccounts]
    rw [hstep] at h
    have hsecret := h id _ (Table.get?_update_self hu) hconfirmed
    exact hne ((hproven id u hu hconfirmed).trans hsecret.symm)
  | _ => exact absurd hrestarts not_false

end Secrets

section Codes

variable {s s' : LoginState} {m : Enrolment} {id : ℕ} {code backupCode secret : String}

theorem acceptedToDisable_iff : AcceptedToDisable s id code backupCode ↔
    (code ≠ "" ∨ backupCode ≠ "") ∧ ∃ u, s.accounts.users.get? id = some u ∧
      if code ≠ "" then
        ∃ secret, u.totpSecret = some secret ∧ secret ≠ "" ∧
          AccountLibrary.totpVerify secret code 0 s.now = true
      else backupCode ∈ splitText ',' (u.backupCodes.getD "") := by
  simp only [AcceptedToDisable, RecoveryCodes.disable2fa, bind_eq_ok, ensure_eq_ok, orThrow_eq_ok]
  constructor
  · rintro ⟨st, _, hgiven, u, hu, h⟩
    refine ⟨hgiven, u, hu, ?_⟩
    split_ifs at h ⊢ with hcode
    · simp only [bind_eq_ok, ensure_eq_ok, orThrow_eq_ok, Option.filter_eq_some_iff,
        decide_eq_true_eq] at h
      obtain ⟨secret, ⟨hsecret, hne⟩, _, hvalid, _⟩ := h
      exact ⟨secret, hsecret, hne, hvalid⟩
    · simp only [bind_eq_ok, ensure_eq_ok] at h
      obtain ⟨_, hmem, _⟩ := h
      exact hmem
  · rintro ⟨hgiven, u, hu, h⟩
    refine ⟨s.accounts.setUser id fun u =>
      { u with totpConfirmed := false, totpSecret := none, backupCodes := none },
      (), hgiven, u, hu, ?_⟩
    split_ifs at h ⊢ with hcode
    · obtain ⟨secret, hsecret, hne, hvalid⟩ := h
      simp only [bind_eq_ok, ensure_eq_ok, orThrow_eq_ok, Option.filter_eq_some_iff,
        decide_eq_true_eq, pure_eq_ok]
      exact ⟨secret, ⟨hsecret, hne⟩, (), hvalid, trivial⟩
    · simp only [bind_eq_ok, ensure_eq_ok, pure_eq_ok]
      exact ⟨(), h, trivial⟩

theorem sameCodes_of_get? (hnow : s'.now = s.now)
    (hrows : ∀ id u, s.accounts.users.get? id = some u → u.totpConfirmed = true →
      s'.accounts.users.get? id = some u) : SameCodes s s' := by
  intro id u hu hconfirmed
  have hu' := hrows id u hu hconfirmed
  constructor
  · intro code
    simp only [Accepted, login2fa_eq_some, Option.some.injEq, exists_and_left, exists_eq_left',
      hu, hu', hnow]
  · intro code backupCode
    rw [acceptedToDisable_iff, acceptedToDisable_iff, hu, hu', hnow]

theorem enrolsQuietly_of_not_restarts {e : Event} (hrestarts : ¬Restarts m e) :
    EnrolsQuietly m e := by
  cases e with
  | enable id secret =>
    cases hok : RecoveryCodes.enable2fa m.state.accounts id secret with
    | error _ =>
      have hstate : (step m (.enable id secret)).state = m.state := by
        simp only [step, RecoveryCodes.step, hok]
      exact sameCodes_of_get? (by rw [hstate]) fun id u hu _ => by rw [hstate]; exact hu
    | ok st =>
      have hstate : (step m (.enable id secret)).state =
          { m.state with accounts :=
            m.state.accounts.setUser id fun u => { u with totpSecret := some secret } } := by
        simp only [step, RecoveryCodes.step, hok, RecoveryCodes.enable2fa_eq_ok hok]
        rfl
      refine sameCodes_of_get? (by rw [hstate]) fun id' u hu hconfirmed => ?_
      rw [hstate]
      by_cases hid : id = id'
      · subst hid
        have hsecret : u.totpSecret = some secret := by
          by_contra hne
          exact hrestarts ⟨u, hu, hconfirmed, hne⟩
        refine (Table.get?_update_self hu).trans (congrArg some ?_)
        rw [withKey_user, ← hsecret, ← Table.key_of_get? hu]
        rfl
      · exact (Table.get?_update_of_ne hid).trans hu
  | _ => trivial

end Codes

/-- In every state of a run the confirmed secrets are those of which the users last showed codes,
and new enrolments change no codes, exactly if nobody whose factor is confirmed enrols again. -/
theorem enrolment_run_iff (s : LoginState) (es : List Event) :
    ((∀ pre, pre <+: es → Proven (run step (Enrolment.start s) pre)) ∧
        Meets step EnrolsQuietly (Enrolment.start s) es) ↔
      Meets step (fun m e => ¬Restarts m e) (Enrolment.start s) es := by
  have hstart : Proven (Enrolment.start s) := by
    intro id u hu hconfirmed
    have hfilter : (some u).filter User.totpConfirmed = some u :=
      Option.filter_eq_some_iff.mpr ⟨rfl, hconfirmed⟩
    change u.totpSecret = ((s.accounts.users.get? id).filter User.totpConfirmed).bind User.totpSecret
    rw [show s.accounts.users.get? id = some u from hu, hfilter]
    rfl
  have hstep : ∀ m e, True → Proven m → (Proven (step m e) ↔ ¬Restarts m e) :=
    fun m e _ hproven => ⟨fun h hrestarts => not_proven_of_restarts hproven hrestarts h,
      proven_step hproven⟩
  have hruns := forall_prefix_iff_meets hstep (fun _ _ _ _ _ => trivial) es trivial hstart
  rw [hruns]
  constructor
  · exact And.left
  · exact fun h => ⟨h, h.imp step fun _ _ hrestarts => enrolsQuietly_of_not_restarts hrestarts⟩

section Sample

omit [AccountLibrary]

@[reducible] def namedCodes : AccountLibrary where
  checkPasswordHash hash password := hash = password
  totpVerify secret code _ _ := code = "code of " ++ secret
  loads _ := none
  dumps _ := "[]"

def enrolledState : LoginState where
  accounts :=
    { users := (∅ : Table User).insert
        { username := "root", email := "root@ca", passwordHash := "secret"
          totpSecret := some "S", totpConfirmed := true } }

/-- An enrolment that is given up after its first step: the codes of the confirmed secret are
refused from then on, and the codes of the other taken. -/
theorem abandoned_enrolment :
    let _ := namedCodes
    let m := Enrolment.start enrolledState
    let m' := step m (.enable 1 "T")
    (Accepted m.state 1 "code of S" ∧ ¬Accepted m'.state 1 "code of S") ∧
      (¬AcceptedToDisable m.state 1 "code of T" "" ∧ AcceptedToDisable m'.state 1 "code of T" "") ∧
      ¬((∀ pre, pre <+: [Event.enable 1 "T"] → Proven (run step m pre)) ∧
        Meets step EnrolsQuietly m [Event.enable 1 "T"]) := by
  intro _ m m'
  have hbefore : Accepted m.state 1 "code of S" := by
    unfold Accepted
    decide +kernel
  have hafter : ¬Accepted m'.state 1 "code of S" := by
    unfold Accepted
    decide +kernel
  have hsome : (m.state.accounts.users.get? 1).map User.totpConfirmed = some true := by
    decide +kernel
  obtain ⟨u, hu, hconfirmed⟩ := Option.map_eq_some_iff.mp hsome
  refine ⟨⟨hbefore, hafter⟩, ⟨?_, ?_⟩, fun h => ?_⟩
  · rintro ⟨st, hst⟩
    have herror : (RecoveryCodes.disable2fa m.state.accounts m.state.now 1 "code of T" "").isOk =
        false := by decide +kernel
    rw [hst] at herror
    cases herror
  · have hisOk : (RecoveryCodes.disable2fa m'.state.accounts m'.state.now 1 "code of T" "").isOk =
        true := by decide +kernel
    cases hok : RecoveryCodes.disable2fa m'.state.accounts m'.state.now 1 "code of T" "" with
    | ok st => exact ⟨st, hok⟩
    | error e =>
      rw [hok] at hisOk
      cases hisOk
  · exact hafter (((h.2.1 1 u hu hconfirmed).1 "code of S").mpr hbefore)

end Sample

end TwoFactor

end CaManager
