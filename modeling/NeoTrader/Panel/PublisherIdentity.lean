import NeoTrader.Catalogue.Signature
import NeoTrader.Panel.PublisherKey

/-!
# The identity of the publisher

A call that needs the key pair reads both keys, and where one is missing it generates a pair and
writes both. The two reads and the two writes are independent, and calls overlap.

* **`identity_of_run`**: in which runs there is one identity;
* **`keys_mixed`**: two first calls that overlap.
-/

namespace NeoTrader

open Js Catalogue

namespace Publisher

/-! ## Calls -/

/-- One of the two keys. -/
inductive KeyName where
  | publicKey
  | privateKey
  deriving DecidableEq

namespace KeyName

def setting : KeyName → String
  | publicKey => kvPublicKey
  | privateKey => kvPrivateKey

def other : KeyName → KeyName
  | publicKey => privateKey
  | privateKey => publicKey

def ofPair (kp : StoreKeypair) : KeyName → String
  | publicKey => kp.publicKeyB64
  | privateKey => kp.privateKeyB64

theorem eq_or_other (k k' : KeyName) : k' = k ∨ k' = k.other := by
  cases k <;> cases k' <;> simp [other]

theorem other_ne (k : KeyName) : k.other ≠ k := by
  cases k <;> decide

theorem setting_ne {k k' : KeyName} (h : k' ≠ k) : k'.setting ≠ k.setting := by
  cases k <;> cases k' <;> first | exact absurd rfl h | decide

end KeyName

/-- How far a call is: what each read has brought, or how each write has ended. -/
inductive KeyPhase where
  | reading (seen : KeyName → Option (Option String))
  | writing (outcome : KeyName → Option Bool)
  | ended (result : Option StoreKeypair)

/-- The settings, and all calls; a call that has not begun has read nothing. -/
structure KeyState where
  table : ConfigTable
  calls : ℕ → KeyPhase

/-- What happens to a call. -/
inductive KeyEvent where
  | read (i : ℕ) (k : KeyName)
  | readFails (i : ℕ)
  | decide (i : ℕ)
  | write (i : ℕ) (k : KeyName) (succeeds : Bool)

namespace KeyState

variable (s : KeyState)

def key (k : KeyName) : Option String := kvTruthy s.table k.setting

/-- A call goes on. -/
def move (i : ℕ) (p : KeyPhase) : KeyState := { s with calls := Function.update s.calls i p }

theorem calls_move_self (i : ℕ) (p : KeyPhase) : (s.move i p).calls i = p :=
  Function.update_self ..

theorem calls_move_of_ne {i j : ℕ} (h : j ≠ i) (p : KeyPhase) :
    (s.move i p).calls j = s.calls j :=
  Function.update_of_ne h ..

/-- A write of a call is on its way. -/
def Writing (i : ℕ) : Prop := ∃ outcome, s.calls i = .writing outcome

end KeyState

/-- The phase after a write has ended. -/
def written (kp : StoreKeypair) (outcome : KeyName → Option Bool) : KeyPhase :=
  match outcome .publicKey, outcome .privateKey with
  | some a, some b => .ended (if a && b then some kp else none)
  | _, _ => .writing outcome

theorem written_eq_writing {kp : StoreKeypair} {outcome o : KeyName → Option Bool}
    (h : written kp outcome = .writing o) : o = outcome := by
  rw [written] at h
  cases hpub : outcome .publicKey with
  | none =>
    rw [hpub] at h
    exact (KeyPhase.writing.inj h).symm
  | some a =>
    cases hpriv : outcome .privateKey with
    | none =>
      rw [hpub, hpriv] at h
      exact (KeyPhase.writing.inj h).symm
    | some b =>
      rw [hpub, hpriv] at h
      cases h

/-- **One step.** Call `i` generates the pair `generated i`, if it generates one. -/
def keyStep (generated : ℕ → StoreKeypair) (s : KeyState) : KeyEvent → Option KeyState
  | .read i k =>
    match s.calls i with
    | .reading seen =>
      if seen k = none then
        some (s.move i (.reading (Function.update seen k (some (kvGet s.table k.setting)))))
      else none
    | _ => none
  | .readFails i =>
    match s.calls i with
    | .reading _ => some (s.move i (.ended none))
    | _ => none
  | .decide i =>
    match s.calls i with
    | .reading seen =>
      match seen .publicKey, seen .privateKey with
      | some pub, some priv =>
        match pub.filter (· ≠ ""), priv.filter (· ≠ "") with
        | some pub, some priv => some (s.move i (.ended (some ⟨pub, priv⟩)))
        | _, _ => some (s.move i (.writing fun _ => none))
      | _, _ => none
    | _ => none
  | .write i k succeeds =>
    match s.calls i with
    | .writing outcome =>
      if outcome k = none then
        let kp := generated i
        some {
          table := if succeeds then kvSet s.table k.setting (KeyName.ofPair kp k) else s.table
          calls :=
            Function.update s.calls i (written kp (Function.update outcome k (some succeeds))) }
      else none
    | _ => none

def keyRun (generated : ℕ → StoreKeypair) (s : KeyState) : List KeyEvent → Option KeyState
  | [] => some s
  | e :: events => (keyStep generated s e).bind fun s => keyRun generated s events

/-! ## Pairs that belong together -/

section Identity

variable {Key : Type} {lib : SignatureLib Key} {sign : String → String → String}

/-- **Generated pairs**: both keys have a text, and what is signed with a private key verifies under
its public key. -/
structure Generator (lib : SignatureLib Key) (sign : String → String → String) where
  pair : ℕ → StoreKeypair
  text_ne : ∀ n k, KeyName.ofPair (pair n) k ≠ ""
  verifies : ∀ n message,
    verifySignature lib (pair n).publicKeyB64 message (sign (pair n).privateKeyB64 message) = true

/-- If both keys are stored, they were generated together. -/
def Paired (g : Generator lib sign) (t : ConfigTable) : Prop :=
  ∀ pub priv, kvTruthy t kvPublicKey = some pub → kvTruthy t kvPrivateKey = some priv →
    ∃ n, g.pair n = ⟨pub, priv⟩

/-- Later calls, one after the other; `n` is the pair that a call generates, if it does. -/
def later (g : Generator lib sign) (t : ConfigTable) (ns : List ℕ) : ConfigTable :=
  ns.foldl (fun t n => (keypair (g.pair n) t).2) t

/-- **One identity**: the stored keys belong together, and after the identity has been reported
every request is signed with the reported key, and verifies under it. -/
structure Identity (g : Generator lib sign) (t : ConfigTable) : Prop where
  paired : Paired g t
  reported : ∀ m ns n, (getIdentity (g.pair m) lib.publisherIdFromPublicKey t).field "publisher_id"
    = some (.str (lib.publisherIdFromPublicKey
      (keypair (g.pair n) (later g (keypair (g.pair m) t).2 ns)).1.publicKeyB64))
  verified : ∀ m ns n message,
    verifySignature lib (keypair (g.pair n) (later g (keypair (g.pair m) t).2 ns)).1.publicKeyB64
      message (sign (keypair (g.pair n) (later g (keypair (g.pair m) t).2 ns)).1.privateKeyB64
        message) = true

theorem kvTruthy_kvSet {t : ConfigTable} {key value key' : String} (hvalue : value ≠ "") :
    kvTruthy (kvSet t key value) key' = if key' = key then some value else kvTruthy t key' := by
  rw [kvTruthy, kvTruthy, kvGet_kvSet]
  split_ifs
  · simp [hvalue]
  · rfl

theorem keypair_of_some {generated : StoreKeypair} {t : ConfigTable} {pub priv : String}
    (hpub : kvTruthy t kvPublicKey = some pub) (hpriv : kvTruthy t kvPrivateKey = some priv) :
    keypair generated t = (⟨pub, priv⟩, t) := by
  simp only [keypair, hpub, hpriv]

theorem keypair_of_none {generated : StoreKeypair} {t : ConfigTable}
    (h : kvTruthy t kvPublicKey = none ∨ kvTruthy t kvPrivateKey = none) :
    keypair generated t = (generated, kvSet (kvSet t kvPublicKey generated.publicKeyB64)
      kvPrivateKey generated.privateKeyB64) := by
  rcases h with h | h
  · simp only [keypair, h]
  · cases hpub : kvTruthy t kvPublicKey <;> simp only [keypair, hpub, h]

variable {g : Generator lib sign} {t : ConfigTable}

theorem stored_keypair (n : ℕ) :
    kvTruthy (keypair (g.pair n) t).2 kvPublicKey = some (keypair (g.pair n) t).1.publicKeyB64 ∧
      kvTruthy (keypair (g.pair n) t).2 kvPrivateKey
        = some (keypair (g.pair n) t).1.privateKeyB64 := by
  have hpub : (g.pair n).publicKeyB64 ≠ "" := g.text_ne n .publicKey
  have hpriv : (g.pair n).privateKeyB64 ≠ "" := g.text_ne n .privateKey
  have hmissing : kvTruthy t kvPublicKey = none ∨ kvTruthy t kvPrivateKey = none →
      kvTruthy (keypair (g.pair n) t).2 kvPublicKey = some (keypair (g.pair n) t).1.publicKeyB64 ∧
        kvTruthy (keypair (g.pair n) t).2 kvPrivateKey
          = some (keypair (g.pair n) t).1.privateKeyB64 := by
    intro h
    rw [keypair_of_none h]
    constructor
    · rw [kvTruthy_kvSet hpriv, if_neg (by decide), kvTruthy_kvSet hpub, if_pos rfl]
    · rw [kvTruthy_kvSet hpriv, if_pos rfl]
  cases h₁ : kvTruthy t kvPublicKey with
  | none => exact hmissing (Or.inl h₁)
  | some pub =>
    cases h₂ : kvTruthy t kvPrivateKey with
    | none => exact hmissing (Or.inr h₂)
    | some priv =>
      rw [keypair_of_some h₁ h₂]
      exact ⟨h₁, h₂⟩

theorem later_eq (m : ℕ) (ns : List ℕ) :
    later g (keypair (g.pair m) t).2 ns = (keypair (g.pair m) t).2 := by
  obtain ⟨hpub, hpriv⟩ := stored_keypair (g := g) (t := t) m
  induction ns with
  | nil => rfl
  | cons n ns ih =>
    rw [later, List.foldl_cons, keypair_of_some hpub hpriv]
    exact ih

theorem keypair_later (m : ℕ) (ns : List ℕ) (n : ℕ) :
    (keypair (g.pair n) (later g (keypair (g.pair m) t).2 ns)).1 = (keypair (g.pair m) t).1 := by
  obtain ⟨hpub, hpriv⟩ := stored_keypair (g := g) (t := t) m
  rw [later_eq, keypair_of_some hpub hpriv]

theorem exists_pair (h : Paired g t) (m : ℕ) : ∃ n, (keypair (g.pair m) t).1 = g.pair n := by
  cases h₁ : kvTruthy t kvPublicKey with
  | none => exact ⟨m, by rw [keypair_of_none (Or.inl h₁)]⟩
  | some pub =>
    cases h₂ : kvTruthy t kvPrivateKey with
    | none => exact ⟨m, by rw [keypair_of_none (Or.inr h₂)]⟩
    | some priv =>
      obtain ⟨n, hn⟩ := h pub priv h₁ h₂
      exact ⟨n, by rw [keypair_of_some h₁ h₂, hn]⟩

/-- **Keys that belong together are one identity.** -/
theorem Paired.identity (h : Paired g t) : Identity g t where
  paired := h
  reported := by
    intro m ns n
    rw [keypair_later]
    rfl
  verified := by
    intro m ns n message
    obtain ⟨n', hn⟩ := exists_pair h m
    rw [keypair_later, hn]
    exact g.verifies n' message

end Identity

/-! ## Runs -/

section Run

variable {Key : Type} {lib : SignatureLib Key} {sign : String → String → String}
  (g : Generator lib sign)

/-- A read has found no key. -/
def Missing (seen : KeyName → Option (Option String)) : Prop :=
  ∃ k v, seen k = some v ∧ v.filter (· ≠ "") = none

/-- A call generates a pair only while no write is on its way and what it has read still holds; and
of its two writes one does not fail where the other replaces nothing that it leaves behind: the key
whose write fails is not stored, if the other one is written. -/
def KeyEvent.Clean (s : KeyState) : KeyEvent → Prop
  | .decide i => ∀ seen, s.calls i = .reading seen → Missing seen →
      (∀ j, ¬ s.Writing j) ∧ ∀ k, seen k = some (kvGet s.table k.setting)
  | .write i k succeeds => ∀ outcome, s.calls i = .writing outcome →
      if succeeds then outcome k.other = some false → s.key k.other = none
      else outcome k.other = some true → s.key k = none
  | _ => True

/-- Each step is clean in the state that it meets. -/
def CleanKeyRun (generated : ℕ → StoreKeypair) (s : KeyState) : List KeyEvent → Prop
  | [] => True
  | e :: events => e.Clean s ∧ ∀ s', keyStep generated s e = some s' →
      CleanKeyRun generated s' events

/-- What the writes of a call have left so far. -/
structure Midway (kp : StoreKeypair) (outcome : KeyName → Option Bool) (t : ConfigTable) :
    Prop where
  done : ∀ k, outcome k = some true → kvTruthy t k.setting = some (KeyName.ofPair kp k)
  old : (∀ k, outcome k ≠ some true) → ∃ k : KeyName, kvTruthy t k.setting = none
  half : ∀ k, outcome k = some true → outcome k.other = some false →
    kvTruthy t k.other.setting = none

/-- **The invariant**: at most one call writes, and where none does the keys belong together. -/
structure KeyInv (s : KeyState) : Prop where
  paired : (∀ i, ¬ s.Writing i) → Paired g s.table
  single : ∀ i j, s.Writing i → s.Writing j → i = j
  midway : ∀ i outcome, s.calls i = .writing outcome → Midway (g.pair i) outcome s.table

variable {g} {s s' : KeyState} {i : ℕ}

theorem KeyInv.move (h : KeyInv g s) {p : KeyPhase} (hfrom : ¬ s.Writing i)
    (hto : ∀ outcome, p ≠ .writing outcome) : KeyInv g (s.move i p) := by
  have hback : ∀ j outcome, (s.move i p).calls j = .writing outcome →
      s.calls j = .writing outcome := by
    intro j outcome hj
    by_cases hij : j = i
    · subst hij
      rw [KeyState.calls_move_self] at hj
      exact absurd hj (hto outcome)
    · rwa [KeyState.calls_move_of_ne s hij] at hj
  have hforth : ∀ j outcome, s.calls j = .writing outcome →
      (s.move i p).calls j = .writing outcome := by
    intro j outcome hj
    have hij : j ≠ i := fun hij => hfrom (hij ▸ ⟨outcome, hj⟩)
    rwa [KeyState.calls_move_of_ne s hij]
  refine ⟨fun hnone => ?_, fun a b ha hb => ?_, fun j outcome hj => ?_⟩
  · exact h.paired fun j hj => hnone j (hj.imp fun outcome => hforth j outcome)
  · exact h.single a b (ha.imp fun outcome => hback a outcome)
      (hb.imp fun outcome => hback b outcome)
  · exact h.midway j outcome (hback j outcome hj)

theorem keyInv_begin (hnone : ∀ j, ¬ s.Writing j)
    (hmissing : ∃ k : KeyName, s.key k = none) :
    KeyInv g (s.move i (.writing fun _ => none)) := by
  have honly : ∀ j, (s.move i (.writing fun _ => none)).Writing j → j = i := by
    rintro j ⟨outcome, hj⟩
    by_contra hij
    rw [KeyState.calls_move_of_ne s hij] at hj
    exact hnone j ⟨outcome, hj⟩
  refine ⟨fun hwriting => ?_, fun a b ha hb => (honly a ha).trans (honly b hb).symm, ?_⟩
  · exact absurd ⟨_, s.calls_move_self i _⟩ (hwriting i)
  · intro j outcome hj
    obtain rfl := honly j ⟨outcome, hj⟩
    rw [KeyState.calls_move_self] at hj
    cases hj
    exact ⟨fun k hk => absurd hk (by simp), fun _ => hmissing, fun k hk => absurd hk (by simp)⟩

theorem Midway.paired {outcome : KeyName → Option Bool} {t : ConfigTable}
    (h : Midway (g.pair i) outcome t) (hended : ∀ k, outcome k ≠ none) : Paired g t := by
  intro pub priv hpub hpriv
  have hstored : ∀ k : KeyName, kvTruthy t k.setting ≠ none := by
    intro k
    cases k
    · exact fun hk => Option.some_ne_none pub (hpub.symm.trans hk)
    · exact fun hk => Option.some_ne_none priv (hpriv.symm.trans hk)
  have hall : ∀ k, outcome k = some true := by
    intro k
    by_contra hk
    have hfalse : outcome k = some false := by
      cases ho : outcome k with
      | none => exact absurd ho (hended k)
      | some b =>
        cases b with
        | true => exact absurd ho hk
        | false => rfl
    by_cases hother : outcome k.other = some true
    · have hback : k.other.other = k := by cases k <;> rfl
      exact hstored _ (h.half k.other hother (by rw [hback]; exact hfalse))
    · obtain ⟨k', hk'⟩ := h.old fun k' => by
        rcases KeyName.eq_or_other k k' with rfl | rfl
        · exact hk
        · exact hother
      exact hstored k' hk'
  have h₁ := (h.done .publicKey (hall _)).symm.trans hpub
  have h₂ := (h.done .privateKey (hall _)).symm.trans hpriv
  cases h₁
  cases h₂
  exact ⟨i, rfl⟩

theorem kvTruthy_written (k k' : KeyName) (t : ConfigTable) :
    kvTruthy (kvSet t k.setting (KeyName.ofPair (g.pair i) k)) k'.setting
      = if k' = k then some (KeyName.ofPair (g.pair i) k) else kvTruthy t k'.setting := by
  rw [kvTruthy_kvSet (g.text_ne i k)]
  by_cases h : k' = k
  · rw [if_pos (congrArg _ h), if_pos h]
  · rw [if_neg (KeyName.setting_ne h), if_neg h]

theorem Midway.succeed {outcome : KeyName → Option Bool} {t : ConfigTable} {k : KeyName}
    (h : Midway (g.pair i) outcome t)
    (hclean : outcome k.other = some false → kvTruthy t k.other.setting = none) :
    Midway (g.pair i) (Function.update outcome k (some true))
      (kvSet t k.setting (KeyName.ofPair (g.pair i) k)) := by
  refine ⟨fun k' hk' => ?_, fun hnone => ?_, fun k' hk' hother => ?_⟩
  · rw [kvTruthy_written]
    by_cases heq : k' = k
    · rw [if_pos heq, heq]
    · rw [if_neg heq]
      rw [Function.update_of_ne heq] at hk'
      exact h.done k' hk'
  · exact absurd (Function.update_self ..) (hnone k)
  · rw [kvTruthy_written]
    rcases KeyName.eq_or_other k k' with rfl | rfl
    · rw [Function.update_of_ne k'.other_ne] at hother
      rw [if_neg k'.other_ne]
      exact hclean hother
    · have hback : k.other.other = k := by cases k <;> rfl
      rw [hback, Function.update_self] at hother
      cases hother

theorem Midway.fail {outcome : KeyName → Option Bool} {t : ConfigTable} {k : KeyName}
    (h : Midway (g.pair i) outcome t) (hpending : outcome k = none)
    (hclean : outcome k.other = some true → kvTruthy t k.setting = none) :
    Midway (g.pair i) (Function.update outcome k (some false)) t := by
  have hne : ∀ k', Function.update outcome k (some false) k' = some true → k' ≠ k := by
    rintro k' hk' rfl
    rw [Function.update_self] at hk'
    cases hk'
  refine ⟨fun k' hk' => ?_, fun hnone => ?_, fun k' hk' hother => ?_⟩
  · have hkk := hne k' hk'
    rw [Function.update_of_ne hkk] at hk'
    exact h.done k' hk'
  · apply h.old
    intro k' hk'
    have hkk : k' ≠ k := fun heq => by
      rw [heq, hpending] at hk'
      cases hk'
    apply hnone k'
    rwa [Function.update_of_ne hkk]
  · have hkk := hne k' hk'
    rw [Function.update_of_ne hkk] at hk'
    obtain rfl := (KeyName.eq_or_other k k').resolve_left hkk
    have hback : k.other.other = k := by cases k <;> rfl
    rw [hback]
    exact hclean hk'

theorem KeyInv.write (h : KeyInv g s) {outcome outcome' : KeyName → Option Bool} {t : ConfigTable}
    (hphase : s.calls i = .writing outcome) (hmid : Midway (g.pair i) outcome' t) :
    KeyInv g ⟨t, Function.update s.calls i (written (g.pair i) outcome')⟩ := by
  have hwas : s.Writing i := ⟨outcome, hphase⟩
  have honly : ∀ j o, Function.update s.calls i (written (g.pair i) outcome') j = .writing o →
      j = i := by
    intro j o hj
    by_contra hij
    rw [Function.update_of_ne hij] at hj
    exact hij (h.single j i ⟨o, hj⟩ hwas)
  refine ⟨fun hnone => ?_, ?_, ?_⟩
  · apply hmid.paired
    intro k hk
    refine hnone i ⟨outcome', (Function.update_self ..).trans ?_⟩
    rw [written]
    cases k
    · rw [hk]
    · rw [hk]
      cases outcome' .publicKey <;> rfl
  · rintro a b ⟨o, ha⟩ ⟨o', hb⟩
    exact (honly a o ha).trans (honly b o' hb).symm
  · intro j o hj
    obtain rfl := honly j o hj
    have hself : written (g.pair j) outcome' = .writing o := (Function.update_self ..).symm.trans hj
    rw [written_eq_writing hself]
    exact hmid

theorem missing_of_seen {t : ConfigTable} {k : KeyName} {v : Option String}
    (hv : some v = some (kvGet t k.setting)) (hmissing : v.filter (· ≠ "") = none) :
    kvTruthy t k.setting = none := by
  rw [Option.some.injEq] at hv
  rw [kvTruthy, ← hv]
  exact hmissing

/-- **One clean step.** -/
theorem keyInv_step {e : KeyEvent} (h : KeyInv g s) (hclean : e.Clean s)
    (hstep : keyStep g.pair s e = some s') : KeyInv g s' := by
  cases e with
  | read i k =>
    cases hphase : s.calls i with
    | reading seen =>
      simp only [keyStep, hphase] at hstep
      split_ifs at hstep
      cases hstep
      exact h.move (fun ⟨o, ho⟩ => by rw [hphase] at ho; cases ho) fun o ho => by cases ho
    | writing outcome => simp [keyStep, hphase] at hstep
    | ended result => simp [keyStep, hphase] at hstep
  | readFails i =>
    cases hphase : s.calls i with
    | reading seen =>
      simp only [keyStep, hphase, Option.some.injEq] at hstep
      subst hstep
      exact h.move (fun ⟨o, ho⟩ => by rw [hphase] at ho; cases ho) fun o ho => by cases ho
    | writing outcome => simp [keyStep, hphase] at hstep
    | ended result => simp [keyStep, hphase] at hstep
  | decide i =>
    cases hphase : s.calls i with
    | writing outcome => simp [keyStep, hphase] at hstep
    | ended result => simp [keyStep, hphase] at hstep
    | reading seen =>
      have hbegin : Missing seen → KeyInv g (s.move i (.writing fun _ => none)) := by
        intro hmissing
        obtain ⟨hnone, hcurrent⟩ := hclean seen hphase hmissing
        obtain ⟨k, v, hv, hv'⟩ := hmissing
        exact keyInv_begin hnone ⟨k, missing_of_seen (hv.symm.trans (hcurrent k)) hv'⟩
      cases hpub : seen .publicKey with
      | none => simp [keyStep, hphase, hpub] at hstep
      | some pub =>
        cases hpriv : seen .privateKey with
        | none => simp [keyStep, hphase, hpub, hpriv] at hstep
        | some priv =>
          cases hpub' : pub.filter (· ≠ "") with
          | none =>
            simp only [keyStep, hphase, hpub, hpriv, hpub', Option.some.injEq] at hstep
            subst hstep
            exact hbegin ⟨.publicKey, pub, hpub, hpub'⟩
          | some pub' =>
            cases hpriv' : priv.filter (· ≠ "") with
            | none =>
              simp only [keyStep, hphase, hpub, hpriv, hpub', hpriv', Option.some.injEq] at hstep
              subst hstep
              exact hbegin ⟨.privateKey, priv, hpriv, hpriv'⟩
            | some priv' =>
              simp only [keyStep, hphase, hpub, hpriv, hpub', hpriv', Option.some.injEq] at hstep
              subst hstep
              exact h.move (fun ⟨o, ho⟩ => by rw [hphase] at ho; cases ho) fun o ho => by cases ho
  | write i k succeeds =>
    cases hphase : s.calls i with
    | reading seen => simp [keyStep, hphase] at hstep
    | ended result => simp [keyStep, hphase] at hstep
    | writing outcome =>
      have hcond := hclean outcome hphase
      have hmid := h.midway i outcome hphase
      simp only [keyStep, hphase] at hstep
      split_ifs at hstep with hpending hok
      · cases hstep
        subst hok
        have hcond : outcome k.other = some false → s.key k.other = none := by simpa using hcond
        exact h.write hphase (hmid.succeed hcond)
      · cases hstep
        obtain rfl := Bool.eq_false_iff.mpr hok
        have hcond : outcome k.other = some true → s.key k = none := by simpa using hcond
        exact h.write hphase (hmid.fail hpending hcond)

/-- **A run of clean steps.** -/
theorem keyInv_run (events : List KeyEvent) : ∀ s : KeyState, KeyInv g s →
    CleanKeyRun g.pair s events → ∀ s', keyRun g.pair s events = some s' → KeyInv g s' := by
  induction events with
  | nil =>
    intro s h _ s' hrun
    cases hrun
    exact h
  | cons e events ih =>
    intro s h hclean s' hrun
    obtain ⟨s₁, hstep, hrun⟩ := Option.bind_eq_some_iff.mp hrun
    exact ih s₁ (keyInv_step h hclean.1 hstep) (hclean.2 s₁ hstep) s' hrun

end Run

/-- No call has begun. -/
def atRest (t : ConfigTable) : KeyState := ⟨t, fun _ => .reading fun _ => none⟩

/-- **There is one identity** after every run of clean steps, once no write is on its way. -/
theorem identity_of_run {Key : Type} {lib : SignatureLib Key} {sign : String → String → String}
    {g : Generator lib sign} {t : ConfigTable} {events : List KeyEvent} {s : KeyState}
    (hstart : Paired g t) (hrun : keyRun g.pair (atRest t) events = some s)
    (hclean : CleanKeyRun g.pair (atRest t) events) (hended : ∀ i, ¬ s.Writing i) :
    Identity g s.table := by
  have hinv : KeyInv g (atRest t) := by
    refine ⟨fun _ => hstart, ?_, ?_⟩
    · rintro i j ⟨o, ho⟩
      cases ho
    · intro i o ho
      cases ho
  exact ((keyInv_run events (atRest t) hinv hclean s hrun).paired hended).identity

/-! ## Two first calls -/

/-- Keys as texts, where the two keys of a pair are the same text, and a signature is the message
behind the key. -/
def plainLib : SignatureLib String where
  publisherIdFromPublicKey pub := "id" ++ pub
  sha256Hex body := body
  keyOf := some
  verify key message signature := signature = key ++ message
  numeral _ := "0"

def numberedKey (n : ℕ) : String := "k" ++ toString n

def numbered : Generator plainLib (· ++ ·) where
  pair n := ⟨numberedKey n, numberedKey n⟩
  text_ne n k := by cases k <;> simp [KeyName.ofPair, numberedKey]
  verifies n message := by simp [verifySignature, plainLib]

def oneByOne : List KeyEvent :=
  [.read 0 .publicKey, .read 0 .privateKey, .decide 0, .write 0 .privateKey true,
    .write 0 .publicKey true, .read 1 .publicKey, .read 1 .privateKey, .decide 1]

/-- Two first calls that both find nothing; the writes of the second fall between those of the
first. -/
def overlapping : List KeyEvent :=
  [.read 0 .publicKey, .read 0 .privateKey, .read 1 .publicKey, .read 1 .privateKey, .decide 0,
    .decide 1, .write 0 .publicKey true, .write 1 .publicKey true, .write 1 .privateKey true,
    .write 0 .privateKey true]

theorem cleanKeyRun_cons {generated : ℕ → StoreKeypair} {s s' : KeyState} {e : KeyEvent}
    {events : List KeyEvent} (hstep : keyStep generated s e = some s') (hclean : e.Clean s)
    (hrest : CleanKeyRun generated s' events) : CleanKeyRun generated s (e :: events) := by
  refine ⟨hclean, fun s'' hstep' => ?_⟩
  rw [hstep, Option.some.injEq] at hstep'
  exact hstep' ▸ hrest

theorem paired_empty : Paired numbered ∅ := by
  intro pub priv hpub
  cases hpub

/-- The calls one after the other. -/
theorem identity_of_oneByOne : ∃ s, keyRun numbered.pair (atRest ∅) oneByOne = some s ∧
    Identity numbered s.table := by
  refine ⟨_, rfl, identity_of_run paired_empty
    (show keyRun numbered.pair (atRest ∅) oneByOne = some _ from rfl) ?_ ?_⟩
  · refine cleanKeyRun_cons rfl trivial (cleanKeyRun_cons rfl trivial (cleanKeyRun_cons rfl ?_
      (cleanKeyRun_cons rfl ?_ (cleanKeyRun_cons rfl ?_ (cleanKeyRun_cons rfl trivial
        (cleanKeyRun_cons rfl trivial (cleanKeyRun_cons rfl ?_ trivial)))))))
    · rintro seen hseen -
      cases hseen
      refine ⟨fun j hj => ?_, fun k => by cases k <;> rfl⟩
      obtain ⟨o, ho⟩ := hj
      rcases j with _ | j
      · cases ho
      · simp [KeyState.move, atRest] at ho
    · intro outcome houtcome
      cases houtcome
      simp
    · intro outcome houtcome
      cases houtcome
      simp [KeyName.other, Function.update]
    · rintro seen hseen ⟨k, v, hv, hmissing⟩
      cases hseen
      cases k
      · cases hv
        exact absurd hmissing (by decide)
      · cases hv
        exact absurd hmissing (by decide)
  · rintro i ⟨o, ho⟩
    rcases i with _ | _ | i
    · cases ho
    · cases ho
    · simp [KeyState.move, atRest] at ho

/-- **The keys of two calls are mixed.** -/
theorem keys_mixed : ∃ s, keyRun numbered.pair (atRest ∅) overlapping = some s ∧
    (∀ i, ¬ s.Writing i) ∧ ¬ Identity numbered s.table := by
  refine ⟨_, rfl, ?_, ?_⟩
  · rintro i ⟨o, ho⟩
    rcases i with _ | _ | i
    · cases ho
    · cases ho
    · simp [KeyState.move, atRest] at ho
  · intro h
    obtain ⟨n, hn⟩ := h.paired (numberedKey 1) (numberedKey 0) (by decide)
      (by decide)
    have hsame : numberedKey 1 = numberedKey 0 :=
      (congrArg StoreKeypair.publicKeyB64 hn).symm.trans
        (congrArg StoreKeypair.privateKeyB64 hn)
    exact absurd hsame (by decide)

end Publisher

end NeoTrader
