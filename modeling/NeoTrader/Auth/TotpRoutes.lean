import NeoTrader.Auth.TotpBypass
import NeoTrader.Await.Pool

/-!
# The routes of the second factor

The routes that raise the token of a password are marked as public, so that the guard of the bearer
token lets them pass, as a global guard and again as the guard of the route, and attaches no user.
The controllers read the user that is not there.

* **`second_factor_unreachable`**: no such request ever answers, whatever token and code it carries,
  and whatever runs beside it;
* **`second_factor_refused`**: a valid token and a valid code are refused;
* **`backup_code_spent_twice`**: behind the guards, two calls that overlap spend one backup code.
-/

namespace NeoTrader

open Await Prog

def AuthRoute.raises : AuthRoute → Bool
  | totpVerify _ | totpBackup _ => true
  | _ => false

/-- **A request to such a route** awaits the rate limit only, and throws. -/
theorem AuthRequest.wp_raises {toUpperCase : String → String} {r : AuthRequest}
    (hr : r.route.raises) :
    (r.body toUpperCase).discard.Wp (histSem authSig) (fun _ op => op = .throttle)
      (fun x _ => x ≠ .ok ()) [] := by
  obtain ⟨bearer, route⟩ := r
  have hvalid (x : Except Err Unit) (e : Err) (h : List (Event authSig)) :
      ((Prog.ofOutcome (S := authSig) x >>= fun _ => .throw e : Auth AuthReply) >>= fun _ =>
        .ret ()).Wp (histSem authSig) (fun _ op => op = .throttle) (fun x _ => x ≠ .ok ()) h := by
    cases x <;> exact nofun
  cases route with
  | totpVerify code =>
    refine ⟨rfl, fun o h ho => ?_⟩
    cases o with
    | error e => exact nofun
    | ok _ => exact hvalid _ _ h
  | totpBackup code =>
    refine ⟨rfl, fun o h ho => ?_⟩
    cases o with
    | error e => exact nofun
    | ok _ => exact hvalid _ _ h
  | _ => cases hr

/-- **The second factor cannot be passed**: in every interleaving of requests, one that raises a
token has asked for the rate limit only, and does not answer. -/
theorem second_factor_unreachable {c : Crypto} {A : AuthOracle → Prop} {w : AuthWorld}
    {P : Pool authSig AuthRequest AuthWorld}
    (hrun : Pool.Reaches (authSem c A) (fun r => (r.body c.toUpperCase).discard) Pool.free ⟨w, []⟩ P) :
    ∀ t ∈ P.threads, t.call.route.raises → (∀ e ∈ t.hist, e.1 = AuthOp.throttle) ∧ t.rest ≠ .ret () := by
  intro t ht hr
  have hbody (r : AuthRequest) : (r.body c.toUpperCase).discard.Wp (histSem authSig)
      (fun _ op => r.route.raises → op = .throttle) (fun x _ => r.route.raises → x ≠ .ok ()) [] := by
    by_cases hr : r.route.raises
    · exact wp_mono (fun _ _ h _ => h) (fun _ _ h _ => h) (AuthRequest.wp_raises hr)
    · have hany : Always (S := authSig) (fun _ _ => True) (r.body c.toUpperCase).discard :=
        always_of_forall (fun _ _ => trivial) _
      exact wp_mono (fun _ _ _ h => absurd h hr) (fun _ _ _ h => absurd h hr) (hany [])
  obtain ⟨hhist, hrest⟩ := Pool.reaches_sound hbody hrun t ht
  refine ⟨fun e he => ?_, fun hret => ?_⟩
  · obtain ⟨h, -, hop⟩ := hhist.mem he
    exact hop hr
  · rw [hret] at hrest
    exact hrest hr rfl

/-! ## A valid code that is refused -/

def signedInWorld : AuthWorld :=
  { enabledWorld with issued := [passwordToken true, passwordToken false] }

def verifyRequest : AuthRequest := ⟨some (passwordToken false), .totpVerify "123456"⟩

def verifyAttempt : Option (Pool authSig AuthRequest AuthWorld) :=
  Pool.replay (handleAuth plainCrypto) (fun r => (r.body plainCrypto.toUpperCase).discard)
    Pool.unchecked [.start verifyRequest, .await 0 plainOracle] ⟨signedInWorld, []⟩

theorem verifyAttempt_threads :
    verifyAttempt.map (fun P => P.threads.map fun t => (t.call, t.rest.finished)) =
      some [(verifyRequest, true)] := by
  decide

/-- The request with a valid code has ended without an answer. -/
theorem second_factor_unreachable_attempt : ∃ P t, verifyAttempt = some P ∧ t ∈ P.threads ∧
    t.call = verifyRequest ∧ t.rest.finished ∧ (∀ e ∈ t.hist, e.1 = AuthOp.throttle) ∧
    t.rest ≠ .ret () := by
  obtain ⟨P, hP, hthreads⟩ := Option.map_eq_some_iff.1 verifyAttempt_threads
  obtain ⟨t, ht, hcall⟩ := List.map_eq_singleton_iff.1 hthreads
  obtain ⟨hcall, hfinished⟩ := Prod.mk.inj hcall
  have hmem : t ∈ P.threads := ht ▸ List.mem_singleton_self t
  have hraises : t.call.route.raises := by
    rw [hcall]
    rfl
  exact ⟨P, t, hP, hmem, hcall, hfinished, second_factor_unreachable (A := fun _ => True)
    (Pool.reaches_of_replay (fun _ _ _ _ _ => trivial) hP) t hmem hraises⟩

/-- **A valid token and a valid code are refused.** -/
theorem second_factor_refused : ¬ ∀ {c : Crypto} {time : ℤ} {w : AuthWorld} {u : User}
    {token : JwtPayload} {code : String}, u ∈ w.users → u.isActive → u.totpEnabled →
    token ∈ w.issued → token.sub = u.id → code.length = 6 → u.Factor c time (.totpVerify code) →
    ∃ x w', ((⟨some token, .totpVerify code⟩ : AuthRequest).body c.toUpperCase).Exec
      (authSem c fun o => o.time = time ∧ o.failure = none ∧ o.expired = false) w (.ok (.token x)) w' ∧
        x.totpVerified := by
  intro hall
  obtain ⟨x, w', hx, -⟩ := @hall plainCrypto 0 signedInWorld enabledUser (passwordToken false) "123456"
    (List.mem_singleton_self _) rfl rfl (by decide) rfl rfl ⟨_, rfl, rfl⟩
  have hrefused : (verifyRequest.body plainCrypto.toUpperCase).Wp
      (authSem plainCrypto fun o => o.time = 0 ∧ o.failure = none ∧ o.expired = false)
      (fun _ _ => True) (fun r _ => ∀ reply, r ≠ .ok reply) signedInWorld :=
    wp_throttle (fun e reply => nofun) (wp_validated (fun e reply => nofun) fun reply => nofun)
  exact hrefused.exec hx _ rfl

/-! ## Behind the guards -/

/-- A user with two backup codes, whose hashes are the codes. -/
def spareUser : User := { enabledUser with backupCodesHash := some "9F0A61C2|5B7E90AA" }

/-- Two calls compare the code with the hashes that both have read, and then both write the column
and sign a token. -/
def spentTwice : Option (Pool authSig String AuthWorld) :=
  Pool.replay (handleAuth plainCrypto) (fun code => (verifyBackupCode id spareUser code).discard)
    Pool.unchecked ([.start "9F0A61C2", .start "9F0A61C2", .await 0 plainOracle, .await 0 plainOracle] ++
      List.replicate 4 (.await 1 plainOracle) ++ List.replicate 2 (.await 0 plainOracle))
    ⟨{ users := [spareUser] }, []⟩

theorem spentTwice_issued : spentTwice.map (fun P => P.world.issued) =
    some [passwordToken true, passwordToken true] := by
  decide

/-- **Two overlapping calls spend one backup code twice**, if they were reached. -/
theorem backup_code_spent_twice : ∃ P, Pool.Reaches (authSem plainCrypto fun _ => True)
    (fun code => (verifyBackupCode id spareUser code).discard) Pool.free
    ⟨{ users := [spareUser] }, []⟩ P ∧ P.world.issued = [passwordToken true, passwordToken true] := by
  obtain ⟨P, hP, hissued⟩ := Option.map_eq_some_iff.1 spentTwice_issued
  exact ⟨P, Pool.reaches_of_replay (fun _ _ _ _ _ => trivial) hP, hissued⟩

end NeoTrader
