import NeoTrader.Auth.Service
import NeoTrader.Await.Invariant

/-!
# What only the second factor may do

Once the second factor is on, a request that carries no code of it must leave the row of the user
and give no token that has passed it. The route that stores a new secret switches it off.

* **`second_factor_kept`**: requests without a code keep it so, where none of them stores a new secret;
* **`second_factor_bypassed`**: a password is enough to switch the second factor off.
-/

namespace NeoTrader

open Await Prog

/-! ## Runs -/

/-- One request, the time of its check, and what became of it. -/
structure AuthMoment where
  request : AuthRequest
  time : ℤ
  before : AuthWorld
  outcome : Except Err AuthReply
  after : AuthWorld

/-- **Requests one after the other.** -/
inductive AuthRun (c : Crypto) (A : AuthOracle → Prop) (start : AuthWorld) :
    List AuthMoment → AuthWorld → Prop
  | nil : AuthRun c A start [] start
  | snoc {l : List AuthMoment} {m : AuthMoment} : AuthRun c A start l m.before →
      (m.request.body c.toUpperCase).Exec (authSem c fun o => A o ∧ o.time = m.time) m.before
        m.outcome m.after →
      AuthRun c A start (l ++ [m]) m.after

/-- **The request carries a code of the user's second factor**: one of the authenticator at that
time, or an unused backup code. -/
def User.Factor (c : Crypto) (time : ℤ) (u : User) : AuthRoute → Prop
  | .totpActivate code | .totpVerify code | .totpDisable code =>
    ∃ secret, u.totpSecret = some secret ∧ c.verify time secret code
  | .totpBackup code => ∃ column, u.backupCodesHash = some column ∧
    ∃ h ∈ splitHashes column, c.compare (c.toUpperCase code) h
  | _ => False

/-- The rows are as before, and no new token has passed the second factor. -/
def Sealed (w w' : AuthWorld) : Prop :=
  w'.users = w.users ∧ ∃ new, w'.issued = w.issued ++ new ∧ ∀ t ∈ new, t.totpVerified = false

theorem Sealed.refl (w : AuthWorld) : Sealed w w :=
  ⟨rfl, [], (List.append_nil _).symm, List.forall_mem_nil _⟩

theorem Sealed.trans {w w' w'' : AuthWorld} (h : Sealed w w') (h' : Sealed w' w'') :
    Sealed w w'' := by
  obtain ⟨hu, new, hnew, hfalse⟩ := h
  obtain ⟨hu', new', hnew', hfalse'⟩ := h'
  refine ⟨hu'.trans hu, new ++ new', ?_, List.forall_mem_append.2 ⟨hfalse, hfalse'⟩⟩
  rw [hnew', hnew, List.append_assoc]

/-! ## One operation -/

section Steps

variable {c : Crypto} {A : AuthOracle → Prop} {w : AuthWorld}

theorem wp_auth {op : AuthOp} {x : AuthOracle → Except Err (op.Ans × AuthWorld)}
    {Q : Except Err op.Ans → AuthWorld → Prop}
    (hop : ∀ o, handleAuth c o op w = effect o w (x o)) (herr : ∀ e, Q (.error e) w)
    (hok : ∀ o a w', A o → x o = .ok (a, w') → Q (.ok a) w') :
    (auth op).Wp (authSem c A) (fun _ _ => True) Q w := by
  refine wp_perform.2 ⟨trivial, ?_⟩
  rintro r w₁ ⟨o, ho, hh⟩
  have heffect : effect o w (x o) = (r, w₁) := (hop o).symm.trans hh
  unfold effect at heffect
  split at heffect
  · cases heffect
    exact herr _
  · cases heffect
    exact herr _
  · next heq =>
    cases heffect
    exact hok o _ _ ho heq

theorem wp_auth_read {op : AuthOp} {a : AuthOracle → op.Ans} {Q : Except Err op.Ans → AuthWorld → Prop}
    (hop : ∀ o, handleAuth c o op w = effect o w (.ok (a o, w))) (herr : ∀ e, Q (.error e) w)
    (hok : ∀ o, A o → Q (.ok (a o)) w) : (auth op).Wp (authSem c A) (fun _ _ => True) Q w := by
  refine wp_auth hop herr fun o b w' ho hb => ?_
  cases hb
  exact hok o ho

theorem wp_throttle {β : Type} {f : Unit → Auth β} {Q : Except Err β → AuthWorld → Prop}
    (herr : ∀ e, Q (.error e) w) (hf : (f ()).Wp (authSem c A) (fun _ _ => True) Q w) :
    (auth .throttle >>= f).Wp (authSem c A) (fun _ _ => True) Q w := by
  have hop : ∀ o, handleAuth c o .throttle w = effect o w (.ok ((), w)) := fun _ => rfl
  exact (wp_bind _ _).2 (wp_auth_read hop herr fun _ _ => hf)

theorem wp_validated {β : Type} {x : Except Err Unit} {f : Unit → Auth β}
    {Q : Except Err β → AuthWorld → Prop} (herr : ∀ e, Q (.error e) w)
    (hf : (f ()).Wp (authSem c A) (fun _ _ => True) Q w) :
    (Prog.ofOutcome (S := authSig) x >>= f).Wp (authSem c A) (fun _ _ => True) Q w := by
  cases x with
  | error e => exact herr e
  | ok _ => exact hf

theorem wp_findById (id : String) :
    (findById id).Wp (authSem c A) (fun _ _ => True)
      (fun r w' => w' = w ∧ ∀ u, r = .ok u → u ∈ w.users) w := by
  refine (wp_bind _ _).2 (wp_auth_read (fun _ => rfl) (fun e => ⟨rfl, fun u hu => by cases hu⟩) ?_)
  intro o _
  cases hfind : w.users.find? fun u => u.id = id ∧ u.isActive with
  | none => exact ⟨rfl, fun u hu => by cases hu⟩
  | some u =>
    refine ⟨rfl, fun u' hu' => ?_⟩
    cases hu'
    exact List.mem_of_find?_eq_some hfind

/-- **The guard of the bearer token** attaches a row of the user, for a token that was signed here. -/
theorem wp_jwtAuthGuard (bearer : Option JwtPayload) (attached : Option RequestUser) :
    (jwtAuthGuard false bearer attached).Wp (authSem c A) (fun _ _ => True)
      (fun r w' => w' = w ∧ ∀ x, r = .ok x → ∃ t u, bearer = some t ∧ t ∈ w.issued ∧ u ∈ w.users ∧
        x = some { user := u, totpVerified := some t.totpVerified }) w := by
  cases bearer with
  | none => exact ⟨rfl, fun x hx => by cases hx⟩
  | some t =>
    refine (wp_bind _ _).2 (wp_auth_read (fun _ => rfl) (fun e => ⟨rfl, fun u hu => by cases hu⟩) ?_)
    intro o _
    refine wp_ite (fun hok => ?_) fun _ => ⟨rfl, fun x hx => by cases hx⟩
    refine wp_bind_of (wp_findById t.sub) ?_ ?_
    · rintro u w₁ ⟨rfl, hu⟩
      refine ⟨rfl, fun x hx => ?_⟩
      cases hx
      rw [Bool.and_eq_true] at hok
      exact ⟨t, u, rfl, of_decide_eq_true hok.1, hu u rfl, rfl⟩
    · rintro e w₁ ⟨rfl, -⟩
      exact ⟨rfl, fun x hx => by cases hx⟩

/-! ## One request -/

theorem wp_bind_sealed {α β : Type} {p : Auth α} {f : α → Auth β} {P : α → Prop}
    (hp : p.Wp (authSem c A) (fun _ _ => True) (fun r w' => w' = w ∧ ∀ a, r = .ok a → P a) w)
    (hf : ∀ a, P a → (f a).Wp (authSem c A) (fun _ _ => True) (fun _ w' => Sealed w w') w) :
    (p >>= f).Wp (authSem c A) (fun _ _ => True) (fun _ w' => Sealed w w') w := by
  refine wp_bind_of hp ?_ ?_
  · rintro a w₁ ⟨rfl, ha⟩
    exact hf a (ha a rfl)
  · rintro e w₁ ⟨rfl, -⟩
    exact .refl _

theorem wp_attachedUser {β : Type} {property : String} {u : RequestUser} {f : User → Auth β}
    {Q : Except Err β → AuthWorld → Prop} :
    (attachedUser property (some u) >>= f).Wp (authSem c A) (fun _ _ => True) Q w ↔
      (f u.user).Wp (authSem c A) (fun _ _ => True) Q w := Iff.rfl

theorem wp_createUser {u : User} (hw : w.users = [u]) (username password : String) :
    (createUser username password).Wp (authSem c A) (fun _ _ => True) (fun _ w' => Sealed w w') w := by
  refine (wp_bind _ _).2 (wp_auth_read (fun _ => rfl) (fun e => .refl w) fun o _ => ?_)
  refine wp_ite (fun _ => .refl w) fun hcount => ?_
  rw [hw] at hcount
  exact absurd Nat.one_pos hcount

theorem wp_issueToken {u : User} (henabled : u.totpEnabled) :
    (issueToken u).Wp (authSem c A) (fun _ _ => True) (fun _ w' => Sealed w w') w := by
  refine (wp_bind _ _).2 (wp_auth (fun _ => rfl) (fun e => .refl w) fun o t w₁ _ hw₁ => ?_)
  cases hw₁
  refine ⟨rfl, [_], rfl, List.forall_mem_singleton.2 ?_⟩
  simp [henabled]

theorem wp_activateTotp {u : User} (henabled : u.totpEnabled) (code : String) :
    (activateTotp u code).Wp (authSem c A) (fun _ _ => True) (fun _ w' => Sealed w w') w := by
  unfold activateTotp
  split
  · exact .refl w
  · rw [if_pos henabled]
    exact .refl w

theorem wp_disableTotp {u : User} {time : ℤ} {code : String} (hA : ∀ o, A o → o.time = time)
    (hfactor : ¬ u.Factor c time (.totpDisable code)) :
    (disableTotp u code).Wp (authSem c A) (fun _ _ => True) (fun _ w' => Sealed w w') w := by
  unfold disableTotp
  split
  · exact .refl w
  next secret hsecret =>
  have hstored : u.totpSecret = some secret := by
    unfold activeSecret at hsecret
    split at hsecret
    · exact (Option.filter_eq_some_iff.1 hsecret).1
    · cases hsecret
  refine (wp_bind _ _).2 (wp_auth_read (fun _ => rfl) (fun e => .refl w) fun o ho => ?_)
  refine wp_ite (fun hok => ?_) fun _ => .refl w
  rw [hA o ho] at hok
  exact absurd ⟨secret, hstored, hok⟩ hfactor

theorem wp_localGuard (username password : String) :
    (localGuard username password).Wp (authSem c A) (fun _ _ => True)
      (fun r w' => w' = w ∧ ∀ x, r = .ok x → ∃ u ∈ w.users, x = some { user := u, totpVerified := none })
      w := by
  refine (wp_bind _ _).2 (wp_auth_read (fun _ => rfl) (fun e => ⟨rfl, fun u hu => by cases hu⟩) ?_)
  intro o _
  cases hfind : w.users.find? fun u => u.username = username ∧ u.isActive with
  | none => exact ⟨rfl, fun u hu => by cases hu⟩
  | some u =>
    refine (wp_bind _ _).2 (wp_auth_read (fun _ => rfl) (fun e => ⟨rfl, fun u hu => by cases hu⟩) ?_)
    intro o' _
    refine wp_ite (fun _ => ⟨rfl, fun x hx => ?_⟩) fun _ => ⟨rfl, fun x hx => by cases hx⟩
    cases hx
    exact ⟨u, List.mem_of_find?_eq_some hfind, rfl⟩

/-- **A request without a code of the second factor** keeps the world sealed, unless it stores a
new secret. -/
theorem AuthRequest.wp_sealed {time : ℤ} {u : User} {r : AuthRequest} (hw : w.users = [u])
    (henabled : u.totpEnabled) (hA : ∀ o, A o → o.time = time) (hfactor : ¬ u.Factor c time r.route)
    (hsetup : r.route = .totpSetup → ∀ t, r.bearer = some t → t ∉ w.issued) :
    (r.body c.toUpperCase).Wp (authSem c A) (fun _ _ => True) (fun _ w' => Sealed w w') w := by
  obtain ⟨bearer, route⟩ := r
  have hsame : Sealed w w := .refl w
  cases route with
  | register username password =>
    refine wp_throttle (fun _ => hsame) (wp_validated (fun _ => hsame) ?_)
    exact wp_bind_of (P := fun _ w' => Sealed w w') (wp_createUser hw username password) (fun _ _ h => h)
      fun _ _ h => h
  | login username password =>
    refine wp_throttle (fun _ => hsame) (wp_bind_sealed (wp_localGuard username password) fun x hx => wp_validated (fun _ => hsame) ?_)
    obtain ⟨u', hu', rfl⟩ := hx
    rw [hw] at hu'
    obtain rfl := List.mem_singleton.1 hu'
    refine wp_attachedUser.2 ?_
    exact wp_bind_of (P := fun _ w' => Sealed w w') (wp_issueToken henabled) (fun _ _ h => h)
      fun _ _ h => h
  | totpSetup =>
    refine wp_bind_sealed (wp_jwtAuthGuard bearer none) fun x hx => ?_
    obtain ⟨t, -, rfl, ht, -⟩ := hx
    exact absurd ht (hsetup rfl t rfl)
  | totpActivate code =>
    refine wp_bind_sealed (wp_jwtAuthGuard bearer none) fun x hx => wp_throttle (fun _ => hsame) (wp_validated (fun _ => hsame) ?_)
    obtain ⟨t, u', -, -, hu', rfl⟩ := hx
    rw [hw] at hu'
    obtain rfl := List.mem_singleton.1 hu'
    refine wp_attachedUser.2 ?_
    exact wp_bind_of (P := fun _ w' => Sealed w w') (wp_activateTotp henabled code) (fun _ _ h => h)
      fun _ _ h => h
  -- the public routes attach no user, which the controller reads
  | totpVerify code => exact wp_throttle (fun _ => hsame) (wp_validated (fun _ => hsame) (.refl w))
  | totpBackup code => exact wp_throttle (fun _ => hsame) (wp_validated (fun _ => hsame) (.refl w))
  | totpDisable code =>
    refine wp_bind_sealed (wp_jwtAuthGuard bearer none) fun x hx => wp_throttle (fun _ => hsame) ?_
    obtain ⟨t, u', -, -, hu', rfl⟩ := hx
    rw [hw] at hu'
    obtain rfl := List.mem_singleton.1 hu'
    refine (wp_bind _ _).2 ((wp_bind _ _).2 (wp_ofOutcome.2 ?_))
    generalize totpRequiredGuard _ = passes
    cases passes with
    | error e => exact .refl w
    | ok _ =>
      refine wp_validated (fun _ => hsame) (wp_attachedUser.2 ?_)
      exact wp_bind_of (P := fun _ w' => Sealed w w') (wp_disableTotp hA hfactor) (fun _ _ h => h)
        fun _ _ h => h

end Steps

/-! ## The only user -/

/-- The operation creates no user. -/
def AuthOp.keepsUsers : AuthOp → Bool
  | userCreate _ _ => false
  | _ => true

theorem handleAuth_users {c : Crypto} {o : AuthOracle} {op : AuthOp} {w w' : AuthWorld}
    {r : Except Err op.Ans} (hop : op.keepsUsers) (h : handleAuth c o op w = (r, w')) :
    w'.users.length = w.users.length := by
  have hcases {α : Type} {x : Except Err (α × AuthWorld)} {r : Except Err α}
      (h : effect o w x = (r, w')) : w' = w ∨ ∃ a, x = .ok (a, w') := by
    unfold effect at h
    split at h
    · cases h
      exact .inl rfl
    · cases h
      exact .inl rfl
    · cases h
      exact .inr ⟨_, rfl⟩
  cases op with
  | userCreate username passwordHash => cases hop
  | userUpdate id patch =>
    obtain rfl | ⟨a, ha⟩ := hcases h
    · rfl
    · split at ha
      · cases ha
        exact List.length_map _
      · cases ha
  | _ =>
    obtain rfl | ⟨a, ha⟩ := hcases h
    · rfl
    · cases ha
      rfl

/-- The program creates no user. -/
abbrev CreatesNone {α : Type} (p : Auth α) : Prop :=
  Always (S := authSig) (fun _ op => op.keepsUsers) p

theorem createsNone_auth {op : AuthOp} (h : op.keepsUsers) : CreatesNone (auth op) :=
  always_perform fun _ => h

theorem createsNone_findById (id : String) : CreatesNone (findById id) := by
  refine always_bind (createsNone_auth rfl) fun u => ?_
  cases u
  · exact always_throw _
  · exact always_ret _

theorem createsNone_jwtAuthGuard (isPublic : Bool) (bearer : Option JwtPayload)
    (attached : Option RequestUser) : CreatesNone (jwtAuthGuard isPublic bearer attached) := by
  refine always_ite (fun _ => always_ret _) fun _ => ?_
  cases bearer with
  | none => exact always_throw _
  | some t =>
    refine always_bind (createsNone_auth rfl) fun ok => always_ite (fun _ => ?_) fun _ => always_throw _
    exact always_bind (createsNone_findById t.sub) fun _ => always_ret _

theorem createsNone_localGuard (username password : String) :
    CreatesNone (localGuard username password) := by
  refine always_bind (createsNone_auth rfl) fun u => ?_
  cases u with
  | none => exact always_throw _
  | some u =>
    refine always_bind (createsNone_auth rfl) fun ok => ?_
    exact always_ite (fun _ => always_ret _) fun _ => always_throw _

theorem createsNone_guard (bearer : Option JwtPayload) (attached : Option RequestUser) (r : AuthRoute) :
    CreatesNone (r.guard bearer attached) := by
  cases r with
  | login username password => exact createsNone_localGuard username password
  | totpVerify code => exact createsNone_jwtAuthGuard _ bearer attached
  | totpBackup code => exact createsNone_jwtAuthGuard _ bearer attached
  | totpDisable code => exact always_bind (always_ofOutcome _) fun _ => always_ret _
  | _ => exact always_ret _

theorem createsNone_issueToken (user : User) : CreatesNone (issueToken user) :=
  always_bind (createsNone_auth rfl) fun _ => always_ret _

theorem createsNone_setupTotp (user : User) : CreatesNone (setupTotp user) :=
  always_bind (createsNone_auth rfl) fun _ => always_bind (createsNone_auth rfl) fun _ =>
    always_bind (createsNone_auth rfl) fun _ => always_ret _

theorem createsNone_activateTotp (user : User) (code : String) :
    CreatesNone (activateTotp user code) := by
  unfold activateTotp
  split
  · exact always_throw _
  refine always_ite (fun _ => always_throw _) fun _ => ?_
  refine always_bind (createsNone_auth rfl) fun ok => always_ite (fun _ => ?_) fun _ => always_throw _
  refine always_bind (createsNone_auth rfl) fun _ => always_bind (createsNone_auth rfl) fun codes => ?_
  refine always_bind (always_collect fun _ => createsNone_auth rfl) fun _ => ?_
  exact always_bind (createsNone_auth rfl) fun _ => always_ret _

theorem createsNone_checked {α : Type} {secret code : String} {p : Auth α} {e : Err}
    (hp : CreatesNone p) : CreatesNone (do
      let ok : Bool ← auth (.totpVerify secret code)
      if ok then p else .throw e) :=
  always_bind (createsNone_auth rfl) fun _ => always_ite (fun _ => hp) fun _ => always_throw _

theorem createsNone_verifyTotpAndUpgrade (user : User) (code : String) :
    CreatesNone (verifyTotpAndUpgrade user code) := by
  unfold verifyTotpAndUpgrade
  split
  · exact always_throw _
  · exact createsNone_checked (createsNone_auth rfl)

theorem createsNone_disableTotp (user : User) (code : String) :
    CreatesNone (disableTotp user code) := by
  unfold disableTotp
  split
  · exact always_throw _
  · exact createsNone_checked (createsNone_auth rfl)

theorem createsNone_verifyBackupCode (toUpperCase : String → String) (user : User) (code : String) :
    CreatesNone (verifyBackupCode toUpperCase user code) := by
  refine always_bind ?_ fun ok => always_ite (fun _ => createsNone_auth rfl) fun _ => always_throw _
  unfold consumeBackupCode
  split
  · exact always_ret _
  refine always_bind (always_collect fun _ => createsNone_auth rfl) fun results => ?_
  refine always_ite (fun _ => ?_) fun _ => always_ret _
  exact always_bind (createsNone_auth rfl) fun _ => always_ret _

theorem createsNone_handler {toUpperCase : String → String} {attached : Option RequestUser}
    {r : AuthRoute} (hr : ∀ username password, r ≠ .register username password) :
    CreatesNone (r.handler toUpperCase attached) := by
  have hattached {property : String} {β : Type} {f : User → Auth β} (hf : ∀ u, CreatesNone (f u)) :
      CreatesNone (attachedUser property attached >>= f) := by
    cases attached with
    | none => exact always_throw _
    | some u => exact hf u.user
  cases r with
  | register username password => exact absurd rfl (hr username password)
  | login username password =>
    exact hattached fun u => always_bind (createsNone_issueToken u) fun _ => always_ret _
  | totpSetup => exact hattached fun u => always_bind (createsNone_setupTotp u) fun _ => always_ret _
  | totpActivate code =>
    exact hattached fun u => always_bind (createsNone_activateTotp u code) fun _ => always_ret _
  | totpVerify code =>
    exact hattached fun u => always_bind (createsNone_verifyTotpAndUpgrade u code) fun _ => always_ret _
  | totpBackup code =>
    exact hattached fun u => always_bind (createsNone_verifyBackupCode _ u code) fun _ => always_ret _
  | totpDisable code =>
    exact hattached fun u => always_bind (createsNone_disableTotp u code) fun _ => always_ret _

section Runs

variable {c : Crypto} {A : AuthOracle → Prop} {w w₁ : AuthWorld}

theorem wp_createsNone {α : Type} {p : Auth α} (hp : CreatesNone p) (w : AuthWorld) :
    p.Wp (authSem c A) (fun _ _ => True) (fun _ w' => w'.users.length = w.users.length) w := by
  have hkeeps : p.Keeps (authSem c A) fun w' => w'.users.length = w.users.length := by
    refine Always.keeps (K := fun _ _ => True) hp ?_
    rintro w₁ w₂ h op r hsame - hop ⟨o, -, hh⟩
    exact ⟨(handleAuth_users hop hh).trans hsame, trivial, fun _ _ => trivial⟩
  exact wp_mono (fun _ _ _ => trivial) (fun _ _ h => h) (hkeeps w rfl)

/-- **A request leaves at most one user.** -/
theorem AuthRequest.wp_only {r : AuthRequest} (hw : w.users.length ≤ 1) :
    (r.body c.toUpperCase).Wp (authSem c A) (fun _ _ => True) (fun _ w' => w'.users.length ≤ 1) w := by
  by_cases hr : ∀ username password, r.route ≠ .register username password
  · have hbody : CreatesNone (r.body c.toUpperCase) := by
      refine always_bind (createsNone_jwtAuthGuard _ _ _) fun x => ?_
      refine always_bind (createsNone_auth rfl) fun _ => ?_
      refine always_bind (createsNone_guard _ _ _) fun y => ?_
      exact always_bind (always_ofOutcome _) fun _ => createsNone_handler hr
    exact wp_post (fun _ w' h => h.trans_le hw) (wp_createsNone hbody w)
  · push Not at hr
    obtain ⟨username, password, hr⟩ := hr
    obtain ⟨bearer, route⟩ := r
    obtain rfl : route = .register username password := hr
    refine wp_throttle (fun e => hw) (wp_validated (fun e => hw) ?_)
    refine (wp_bind _ _).2 ((wp_bind _ _).2 (wp_auth_read (fun _ => rfl) (fun e => hw) fun o _ => ?_))
    refine wp_ite (fun _ => hw) fun hcount => ?_
    have hnone : w.users = [] := List.length_eq_zero_iff.1 (Nat.eq_zero_of_not_pos hcount)
    refine (wp_bind _ _).2 (wp_auth_read (fun _ => rfl) (fun e => hw) fun o _ => ?_)
    refine wp_auth (fun _ => rfl) (fun e => hw) fun o u w' _ hw' => ?_
    split at hw'
    · cases hw'
    · cases hw'
      show (w.users ++ [_]).length ≤ 1
      simp [hnone]

theorem AuthRun.only {l : List AuthMoment} (hrun : AuthRun c A {} l w) : w.users.length ≤ 1 := by
  induction hrun with
  | nil => exact Nat.zero_le 1
  | snoc _ hx ih => exact (AuthRequest.wp_only ih).exec hx

theorem AuthRun.sealed {l : List AuthMoment} {u : User} (hw₁ : w₁.users = [u])
    (henabled : u.totpEnabled) (hrun : AuthRun c A w₁ l w)
    (hfactor : ∀ m ∈ l, ¬ u.Factor c m.time m.request.route)
    (hsetup : ∀ m ∈ l, m.request.route = .totpSetup → ∀ t, m.request.bearer = some t →
      t ∉ m.before.issued) : Sealed w₁ w := by
  induction hrun with
  | nil => exact .refl w₁
  | @snoc l m hrun hx ih =>
    obtain ⟨hfactor, hmfactor⟩ := List.forall_mem_append.1 hfactor
    obtain ⟨hsetup, hmsetup⟩ := List.forall_mem_append.1 hsetup
    have hbefore := ih hfactor hsetup
    have hstep := AuthRequest.wp_sealed (A := fun o => A o ∧ o.time = m.time) (hbefore.1.trans hw₁)
      henabled (fun o ho => ho.2) (hmfactor m (List.mem_singleton_self m))
      (hmsetup m (List.mem_singleton_self m))
    exact hbefore.trans (hstep.exec hx)

/-- **Once the second factor is on, requests without a code of it** leave the user as it is and give
no token that has passed it, where none of them stores a new secret with an accepted token. -/
theorem second_factor_kept {l₁ l₂ : List AuthMoment} {u : User} (hbefore : AuthRun c A {} l₁ w₁)
    (hu : u ∈ w₁.users) (henabled : u.totpEnabled) (hrun : AuthRun c A w₁ l₂ w)
    (hfactor : ∀ m ∈ l₂, ¬ u.Factor c m.time m.request.route)
    (hsetup : ∀ m ∈ l₂, m.request.route = .totpSetup → ∀ t, m.request.bearer = some t →
      t ∉ m.before.issued) :
    w.users = [u] ∧ ∃ new, w.issued = w₁.issued ++ new ∧ ∀ t ∈ new, t.totpVerified = false := by
  have hone : w₁.users = [u] := by
    obtain ⟨u', hu'⟩ := List.length_eq_one_iff.1
      (le_antisymm hbefore.only (List.length_pos_of_mem hu))
    rw [hu', List.mem_singleton] at hu
    rw [hu', hu]
  obtain ⟨husers, hnew⟩ := hrun.sealed hone henabled hfactor hsetup
  exact ⟨husers.trans hone, hnew⟩

end Runs

/-! ## A bypass -/

/-- Requests that all meet the same oracle. -/
def runAuth (c : Crypto) (o : AuthOracle) : List AuthRequest → AuthWorld →
    Option (List AuthMoment × AuthWorld)
  | [], w => some ([], w)
  | request :: l, w => do
    let (outcome, after) ← (request.body c.toUpperCase).execute (handleAuth c o)
      (fun _ _ => true) w
    let (moments, w') ← runAuth c o l after
    return (⟨request, o.time, w, outcome, after⟩ :: moments, w')

theorem AuthRun.append_runAuth {c : Crypto} {A : AuthOracle → Prop} {o : AuthOracle}
    {start w₀ w : AuthWorld} {l₀ l : List AuthMoment} {requests : List AuthRequest} (ho : A o)
    (hrun : AuthRun c A start l₀ w₀) (h : runAuth c o requests w₀ = some (l, w)) :
    AuthRun c A start (l₀ ++ l) w := by
  induction requests generalizing l₀ w₀ l with
  | nil =>
    cases h
    rwa [List.append_nil]
  | cons r rs ih =>
    obtain ⟨⟨x, w₁⟩, hx, h⟩ := Option.bind_eq_some_iff.1 h
    obtain ⟨⟨l', w'⟩, hl', h⟩ := Option.bind_eq_some_iff.1 h
    cases h
    have hexec := exec_of_execute (M := authSem c fun o' => A o' ∧ o'.time = o.time)
      (fun op w _ => ⟨o, ⟨ho, rfl⟩, rfl⟩) hx
    have hfirst : AuthRun c A start (l₀ ++ [⟨r, o.time, w₀, x, w₁⟩]) w₁ := .snoc hrun hexec
    have hall := ih hfirst hl'
    rwa [List.append_assoc] at hall

theorem authRun_of_runAuth {c : Crypto} {A : AuthOracle → Prop} {o : AuthOracle}
    {start w : AuthWorld} {l : List AuthMoment} {requests : List AuthRequest} (ho : A o)
    (h : runAuth c o requests start = some (l, w)) : AuthRun c A start l w :=
  AuthRun.nil.append_runAuth ho h

theorem requests_of_runAuth {c : Crypto} {o : AuthOracle} {w₀ w : AuthWorld} {l : List AuthMoment}
    {requests : List AuthRequest} (h : runAuth c o requests w₀ = some (l, w)) :
    l.map AuthMoment.request = requests := by
  induction requests generalizing w₀ l with
  | nil =>
    cases h
    rfl
  | cons r rs ih =>
    obtain ⟨⟨x, w₁⟩, hx, h⟩ := Option.bind_eq_some_iff.1 h
    obtain ⟨⟨l', w'⟩, hl', h⟩ := Option.bind_eq_some_iff.1 h
    cases h
    rw [List.map_cons, ih hl']

/-- The one code of the authenticator, a plain hash, and texts in upper case as they are. -/
def plainCrypto : Crypto where
  verify _ _ code := code = "123456"
  compare text hash := text = hash
  toUpperCase s := s

def plainOracle : AuthOracle where
  newId := "u1"
  text := "KVKFKRCPNZQUYMLX"
  codes := ["9F0A61C2"]

def passwordToken (totpVerified : Bool) : JwtPayload := ⟨"u1", "operador", totpVerified⟩

def enablingRequests : List AuthRequest :=
  [⟨none, .register "operador" "KVKFKRCPNZQUYMLX"⟩, ⟨none, .login "operador" "KVKFKRCPNZQUYMLX"⟩,
    ⟨some (passwordToken true), .totpSetup⟩, ⟨some (passwordToken true), .totpActivate "123456"⟩]

def enabledUser : User where
  id := "u1"
  username := "operador"
  passwordHash := "KVKFKRCPNZQUYMLX"
  totpSecret := some "KVKFKRCPNZQUYMLX"
  totpEnabled := true
  backupCodesHash := some "KVKFKRCPNZQUYMLX"

def enabledWorld : AuthWorld where
  users := [enabledUser]
  issued := [passwordToken true]

theorem runAuth_enabling :
    (runAuth plainCrypto plainOracle enablingRequests {}).map Prod.snd = some enabledWorld := by
  decide

theorem authRun_enabling : ∃ l, AuthRun plainCrypto (fun _ => True) {} l enabledWorld := by
  obtain ⟨⟨l, w⟩, hrun, rfl⟩ := Option.map_eq_some_iff.1 runAuth_enabling
  exact ⟨l, authRun_of_runAuth trivial hrun⟩

theorem no_factor {requests : List AuthRequest} {l : List AuthMoment} {w₀ w : AuthWorld}
    (hrun : runAuth plainCrypto plainOracle requests w₀ = some (l, w))
    (hrequests : ∀ r ∈ requests, ∀ time, ¬ enabledUser.Factor plainCrypto time r.route) :
    ∀ m ∈ l, ¬ enabledUser.Factor plainCrypto m.time m.request.route := by
  rw [← requests_of_runAuth hrun] at hrequests
  exact fun m hm => hrequests m.request (List.mem_map_of_mem hm) m.time

def guessingRequests : List AuthRequest :=
  [⟨none, .login "operador" "KVKFKRCPNZQUYMLX"⟩, ⟨some (passwordToken false), .totpVerify "000000"⟩,
    ⟨some (passwordToken true), .totpDisable "000000"⟩,
    ⟨some (passwordToken false), .totpActivate "000000"⟩, ⟨none, .register "operador2" "KVKFKRCPNZQU"⟩]

theorem runAuth_guessing : (runAuth plainCrypto plainOracle guessingRequests enabledWorld).map
    (fun y => y.2.issued) = some [passwordToken true, passwordToken false] := by
  decide

/-- A guessed code leaves the second factor on. -/
theorem second_factor_kept_guessing : ∃ l₂ w, AuthRun plainCrypto (fun _ => True) enabledWorld l₂ w ∧
    w.users = [enabledUser] ∧
      ∃ new, w.issued = enabledWorld.issued ++ new ∧ ∀ t ∈ new, t.totpVerified = false := by
  obtain ⟨l₁, hbefore⟩ := authRun_enabling
  obtain ⟨⟨l₂, w⟩, hrun, -⟩ := Option.map_eq_some_iff.1 runAuth_guessing
  have hrun' : AuthRun plainCrypto (fun _ => True) enabledWorld l₂ w := authRun_of_runAuth trivial hrun
  have hroutes : ∀ r ∈ guessingRequests, r.route ≠ .totpSetup := by decide
  refine ⟨l₂, w, hrun', second_factor_kept hbefore (List.mem_singleton_self _) rfl hrun'
    (no_factor hrun ?_) fun m hm hsetup => ?_⟩
  · simp [guessingRequests, User.Factor, plainCrypto, enabledUser]
  · rw [← requests_of_runAuth hrun] at hroutes
    exact absurd hsetup (hroutes m.request (List.mem_map_of_mem hm))

/-- Somebody who knows the password asks for a new secret, and for another token. -/
def bypassingRequests : List AuthRequest :=
  [⟨none, .login "operador" "KVKFKRCPNZQUYMLX"⟩, ⟨some (passwordToken false), .totpSetup⟩,
    ⟨none, .login "operador" "KVKFKRCPNZQUYMLX"⟩]

theorem runAuth_bypassing : (runAuth plainCrypto plainOracle bypassingRequests enabledWorld).map
    (fun y => y.2.issued) = some [passwordToken true, passwordToken false, passwordToken true] := by
  decide

/-- **The password is enough to bypass the second factor.** -/
theorem second_factor_bypassed : ¬ ∀ {c : Crypto} {A : AuthOracle → Prop} {w w₁ : AuthWorld}
    {l₁ l₂ : List AuthMoment} {u : User}, AuthRun c A {} l₁ w₁ → u ∈ w₁.users → u.totpEnabled →
    AuthRun c A w₁ l₂ w → (∀ m ∈ l₂, ¬ u.Factor c m.time m.request.route) →
    w.users = [u] ∧ ∃ new, w.issued = w₁.issued ++ new ∧ ∀ t ∈ new, t.totpVerified = false := by
  intro hall
  obtain ⟨l₁, hbefore⟩ := authRun_enabling
  obtain ⟨⟨l₂, w⟩, hrun, hissued⟩ := Option.map_eq_some_iff.1 runAuth_bypassing
  have hfactor := no_factor hrun (by simp [bypassingRequests, User.Factor])
  obtain ⟨-, new, hnew, hfalse⟩ := hall hbefore (List.mem_singleton_self _) rfl
    (authRun_of_runAuth trivial hrun) hfactor
  have hissued : w.issued = enabledWorld.issued ++ [passwordToken false, passwordToken true] := hissued
  rw [hissued] at hnew
  rw [← List.append_cancel_left hnew] at hfalse
  exact absurd (hfalse (passwordToken true) (by decide)) (by decide)

end NeoTrader
