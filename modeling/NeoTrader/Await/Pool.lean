import Mathlib.Algebra.Ring.Nat
import Mathlib.Logic.Relation
import NeoTrader.Await.Invariant

/-!
# Pools of interleaved programs

Any number of calls run side by side over one world. A pool step starts a call, or lets one started
call await its next operation; between two awaits of a call every other call may run. The calls
keep the history of their own events.

* `Thread`, `Pool`, `Step`, `Reaches`: the interleavings, under a guard on the steps, and
  `Reaches.project`, what is seen of a larger world;
* `Along`, `Thread.Sound`, **`reaches_sound`**: what a program does whatever it is answered holds of
  every started call, at every point of every interleaving;
* **`reaches_invariant`**: an invariant of the world that every step keeps, where the steps may rely
  on what earlier answers of the same call still say about the world;
* `serial`, **`reaches_serial`**: calls that run one after the other.
-/

namespace Await

variable {S : Sig} {C W I : Type}

/-- A started call: its history and what is left of it. -/
structure Thread (S : Sig) (C : Type) where
  call : C
  hist : List (Event S)
  rest : Prog S Unit

/-- The world and the started calls, in the order of their start. -/
structure Pool (S : Sig) (C W : Type) where
  world : W
  threads : List (Thread S C)

/-- A condition on a step: the world, the other calls, the stepping call, and the event. -/
abbrev Guard (S : Sig) (C W : Type) : Type :=
  W → List (Thread S C) → Thread S C → Event S → Prop

/-- A condition on a step that can be evaluated. -/
abbrev Check (S : Sig) (C W : Type) : Type :=
  W → List (Thread S C) → Thread S C → Event S → Bool

namespace Pool

/-- **A step of the pool**: a call starts, or a started call gets past one await. -/
inductive Step (M : Sem S W) (body : C → Prog S Unit) (G : Guard S C W) :
    Pool S C W → Pool S C W → Prop
  | start (P : Pool S C W) (c : C) : Step M body G P ⟨P.world, P.threads ++ [⟨c, [], body c⟩]⟩
  | await {w w' : W} {xs ys : List (Thread S C)} {c : C} {h : List (Event S)} {op : S.Op}
      {k : S.Outcome op → Prog S Unit} {r : S.Outcome op} :
      G w (xs ++ ys) ⟨c, h, .await op k⟩ ⟨op, r⟩ → M.rel op w r w' →
      Step M body G ⟨w, xs ++ ⟨c, h, .await op k⟩ :: ys⟩ ⟨w', xs ++ ⟨c, h ++ [⟨op, r⟩], k r⟩ :: ys⟩

/-- Any number of steps. -/
abbrev Reaches (M : Sem S W) (body : C → Prog S Unit) (G : Guard S C W) :
    Pool S C W → Pool S C W → Prop := Relation.ReflTransGen (Step M body G)

/-- No condition on the steps. -/
def free : Guard S C W := fun _ _ _ _ => True

variable {M : Sem S W} {body : C → Prog S Unit} {G : Guard S C W}

theorem Reaches.invariant {J : Pool S C W → Prop} (hstep : ∀ P P', J P → Step M body G P P' → J P')
    {P P' : Pool S C W} (hP : J P) (hr : Reaches M body G P P') : J P' := by
  induction hr with
  | refl => exact hP
  | tail _ hs ih => exact hstep _ _ ih hs

/-- Runs under a guard are runs. -/
theorem Reaches.mono {G' : Guard S C W} (hG : ∀ w ts t e, G w ts t e → G' w ts t e)
    {P P' : Pool S C W} (hr : Reaches M body G P P') : Reaches M body G' P P' := by
  refine Relation.ReflTransGen.mono (fun Q Q' hs => ?_) _ _ hr
  cases hs with
  | start _ c => exact .start _ c
  | await hg hm => exact .await (hG _ _ _ _ hg) hm

/-- Runs of a semantics are runs of one that allows more. -/
theorem Reaches.mono_sem {N : Sem S W} (hM : ∀ op w r w', M.rel op w r w' → N.rel op w r w')
    {P P' : Pool S C W} (hr : Reaches M body G P P') : Reaches N body G P P' := by
  refine Relation.ReflTransGen.mono (fun Q Q' hs => ?_) _ _ hr
  cases hs with
  | start _ c => exact .start _ c
  | await hg hm => exact .await hg (hM _ _ _ _ hm)

/-- **A refinement of the world.** Runs over a larger world are runs over what is seen of it. -/
theorem Reaches.project {V : Type} {N : Sem S V} (f : W → V)
    (hM : ∀ op w r w', M.rel op w r w' → N.rel op (f w) r (f w')) {P P' : Pool S C W}
    (hr : Reaches M body G P P') :
    Reaches N body free ⟨f P.world, P.threads⟩ ⟨f P'.world, P'.threads⟩ := by
  induction hr with
  | refl => exact .refl
  | tail _ hs ih =>
    refine ih.tail ?_
    cases hs with
    | start _ c => exact .start ⟨f _, _⟩ c
    | await _ hm => exact .await trivial (hM _ _ _ _ hm)

end Pool

/-! ## What the started calls have done -/

/-- Every event of the history was allowed by the history before it. -/
def Along (pre : List (Event S) → S.Op → Prop) (h : List (Event S)) : Prop :=
  ∀ h' e, h' ++ [e] <+: h → pre h' e.1

theorem along_nil (pre : List (Event S) → S.Op → Prop) : Along pre [] := by
  intro h' e hp
  simp at hp

theorem along_snoc {pre : List (Event S) → S.Op → Prop} {h : List (Event S)} {e : Event S} :
    Along pre (h ++ [e]) ↔ Along pre h ∧ pre h e.1 := by
  constructor
  · intro ha
    exact ⟨fun h' e' hp => ha h' e' (hp.trans (List.prefix_append _ _)), ha h e List.prefix_rfl⟩
  · rintro ⟨ha, he⟩ h' e' hp
    rcases List.prefix_concat_iff.1 hp with heq | hp
    · obtain ⟨rfl, h2⟩ := List.append_inj' heq rfl
      cases h2
      exact he
    · exact ha h' e' hp

/-- What holds of every allowed event and its history holds of each event of the history. -/
theorem Along.mem {pre : List (Event S) → S.Op → Prop} {h : List (Event S)} (ha : Along pre h)
    {e : Event S} (he : e ∈ h) : ∃ h', h' ++ [e] <+: h ∧ pre h' e.1 := by
  obtain ⟨xs, ys, rfl⟩ := List.append_of_mem he
  have hp : xs ++ [e] <+: xs ++ e :: ys := ⟨ys, by simp⟩
  exact ⟨xs, hp, ha xs e hp⟩

/-- What holds of the calls before a step of one of them holds of them afterwards. -/
theorem forall_threads {Φ : Thread S C → Prop} {xs ys : List (Thread S C)} {t t' : Thread S C}
    (hold : ∀ u ∈ xs ++ t :: ys, Φ u) (hnew : Φ t') : ∀ u ∈ xs ++ t' :: ys, Φ u := by
  simp only [List.mem_append, List.mem_cons] at hold ⊢
  rintro u (hu | rfl | hu)
  · exact hold u (.inl hu)
  · exact hnew
  · exact hold u (.inr (.inr hu))

/-- The same of the calls that have started after the first `n`. -/
theorem forall_later {Φ : Thread S C → Prop} {n : ℕ} {xs ys : List (Thread S C)}
    {t t' : Thread S C} (hold : ∀ u ∈ (xs ++ t :: ys).drop n, Φ u) (hnew : Φ t → Φ t') :
    ∀ u ∈ (xs ++ t' :: ys).drop n, Φ u := by
  rw [List.drop_append] at hold ⊢
  cases hn : n - xs.length with
  | zero =>
    rw [hn, List.drop_zero] at hold
    rw [List.drop_zero]
    exact forall_threads hold (hnew (hold t (by simp)))
  | succ m =>
    rw [hn] at hold
    exact hold

/-- The history was allowed step by step, and what is left of the call goes on so and ends in
`Q`. -/
def Thread.Sound (pre : C → List (Event S) → S.Op → Prop)
    (Q : C → Except S.Err Unit → List (Event S) → Prop) (t : Thread S C) : Prop :=
  Along (pre t.call) t.hist ∧ t.rest.Wp (histSem S) (pre t.call) (Q t.call) t.hist

namespace Pool

variable {M : Sem S W} {body : C → Prog S Unit} {G : Guard S C W}
  {pre : C → List (Event S) → S.Op → Prop} {Q : C → Except S.Err Unit → List (Event S) → Prop}

theorem Thread.Sound.next {c : C} {h : List (Event S)} {op : S.Op}
    {k : S.Outcome op → Prog S Unit} (hs : Thread.Sound pre Q ⟨c, h, .await op k⟩)
    (r : S.Outcome op) : Thread.Sound pre Q ⟨c, h ++ [⟨op, r⟩], k r⟩ :=
  ⟨along_snoc.2 ⟨hs.1, hs.2.1⟩, hs.2.2 r _ rfl⟩

theorem Step.sound (hbody : ∀ c, (body c).Wp (histSem S) (pre c) (Q c) [])
    {P P' : Pool S C W} (hP : ∀ t ∈ P.threads, t.Sound pre Q) (hs : Step M body G P P') :
    ∀ t ∈ P'.threads, t.Sound pre Q := by
  cases hs with
  | start _ c =>
    intro t ht
    rcases List.mem_append.1 ht with ht | ht
    · exact hP t ht
    · rw [List.mem_singleton.1 ht]
      exact ⟨along_nil _, hbody c⟩
  | @await w w' xs ys c h op k r hg hm =>
    intro t ht
    rcases List.mem_append.1 ht with ht | ht
    · exact hP t (List.mem_append_left _ ht)
    · rcases List.mem_cons.1 ht with rfl | ht
      · exact Thread.Sound.next (hP _ (by simp)) r
      · exact hP t (List.mem_append_right _ (List.mem_cons_of_mem _ ht))

/-- **A fact about a call whatever it is answered holds of every started call.** -/
theorem reaches_sound (hbody : ∀ c, (body c).Wp (histSem S) (pre c) (Q c) []) {w : W}
    {P : Pool S C W} (hr : Reaches M body G ⟨w, []⟩ P) : ∀ t ∈ P.threads, t.Sound pre Q :=
  Reaches.invariant (J := fun P => ∀ t ∈ P.threads, t.Sound pre Q)
    (fun _ _ hP hs => hs.sound hbody hP) (by simp) hr

/-- **An invariant of the world.** `K e w` is what an answer of the past still says about the
world; a step relies on it for the answers of its own call, and keeps it for all of them. -/
theorem reaches_invariant {J : W → Prop} {K : Event S → W → Prop}
    (hbody : ∀ c, (body c).Wp (histSem S) (pre c) (fun _ _ => True) [])
    (hstep : ∀ w w' ts t op (r : S.Outcome op), J w → (∀ e ∈ t.hist, K e w) →
      pre t.call t.hist op → G w ts t ⟨op, r⟩ → M.rel op w r w' →
      J w' ∧ K ⟨op, r⟩ w' ∧ ∀ e, K e w → K e w')
    {w : W} {P : Pool S C W} (hw : J w) (hr : Reaches M body G ⟨w, []⟩ P) : J P.world := by
  suffices h : J P.world ∧ ∀ t ∈ P.threads, ∀ e ∈ t.hist, K e P.world from h.1
  induction hr with
  | refl => exact ⟨hw, by simp⟩
  | tail hr hs ih =>
    have hsound := reaches_sound hbody hr
    obtain ⟨hJ, hK⟩ := ih
    cases hs with
    | start c =>
      refine ⟨hJ, fun t ht => ?_⟩
      rcases List.mem_append.1 ht with ht | ht
      · exact hK t ht
      · rw [List.mem_singleton.1 ht]
        simp
    | @await w w' xs ys c h op k r hg hm =>
      have ht := hsound ⟨c, h, .await op k⟩ (by simp)
      obtain ⟨hJ', hnew, hold⟩ := hstep w w' _ _ op r hJ (hK _ (by simp)) ht.2.1 hg hm
      refine ⟨hJ', fun t ht e he => ?_⟩
      rcases List.mem_append.1 ht with ht | ht
      · exact hold e (hK t (List.mem_append_left _ ht) e he)
      · rcases List.mem_cons.1 ht with rfl | ht
        · rcases List.mem_append.1 he with he | he
          · exact hold e (hK ⟨c, h, .await op k⟩ (by simp) e he)
          · rw [List.mem_singleton.1 he]
            exact hnew
        · exact hold e (hK t (List.mem_append_right _ (List.mem_cons_of_mem _ ht)) e he)

/-- **An invariant of the world and of the started calls**, by a step lemma for each kind of step.
A step may rely on what is known of the rest of its call. -/
theorem reaches_sound_threads {J : W → List (Thread S C) → Prop}
    (hbody : ∀ c, (body c).Wp (histSem S) (pre c) (Q c) [])
    (hstart : ∀ w ts c, J w ts → J w (ts ++ [⟨c, [], body c⟩]))
    (hstep : ∀ w w' xs ys c h op k (r : S.Outcome op), J w (xs ++ ⟨c, h, .await op k⟩ :: ys) →
      Thread.Sound pre Q ⟨c, h, .await op k⟩ →
      G w (xs ++ ys) ⟨c, h, .await op k⟩ ⟨op, r⟩ → M.rel op w r w' →
      J w' (xs ++ ⟨c, h ++ [⟨op, r⟩], k r⟩ :: ys))
    {w : W} {P : Pool S C W} (hw : J w []) (hr : Reaches M body G ⟨w, []⟩ P) :
    J P.world P.threads := by
  induction hr with
  | refl => exact hw
  | tail hr hs ih =>
    have hsound := reaches_sound hbody hr
    cases hs with
    | start _ c => exact hstart _ _ c ih
    | @await w w' xs ys c h op k r hg hm =>
      exact hstep w w' xs ys c h op k r ih (hsound ⟨c, h, .await op k⟩ (by simp)) hg hm

/-- The same where a step only relies on what its operation may be. -/
theorem reaches_threads {J : W → List (Thread S C) → Prop}
    (hbody : ∀ c, (body c).Wp (histSem S) (pre c) (Q c) [])
    (hstart : ∀ w ts c, J w ts → J w (ts ++ [⟨c, [], body c⟩]))
    (hstep : ∀ w w' xs ys c h op k (r : S.Outcome op), J w (xs ++ ⟨c, h, .await op k⟩ :: ys) →
      pre c h op → G w (xs ++ ys) ⟨c, h, .await op k⟩ ⟨op, r⟩ → M.rel op w r w' →
      J w' (xs ++ ⟨c, h ++ [⟨op, r⟩], k r⟩ :: ys))
    {w : W} {P : Pool S C W} (hw : J w []) (hr : Reaches M body G ⟨w, []⟩ P) :
    J P.world P.threads :=
  reaches_sound_threads hbody hstart
    (fun w w' xs ys c h op k r hJ hs => hstep w w' xs ys c h op k r hJ hs.2.1) hw hr

end Pool

/-! ## The events of a run -/

namespace Pool

variable {M : Sem S W} {body : C → Prog S Unit} {G : Guard S C (W × List (Event S))}

/-- **The events of a run** are those of its calls. -/
theorem reaches_countP (p : Event S → Bool) {w : W} {P : Pool S C (W × List (Event S))}
    (hr : Reaches M.traced body G ⟨(w, []), []⟩ P) :
    P.world.2.countP p = (P.threads.map fun t => t.hist.countP p).sum := by
  refine Reaches.invariant (J := fun P : Pool S C (W × List (Event S)) =>
    P.world.2.countP p = (P.threads.map fun t => t.hist.countP p).sum) (fun P P' hP hs => ?_) rfl hr
  cases hs with
  | start _ c =>
    rw [List.map_append, List.sum_append]
    exact hP
  | @await w w' xs ys c h op k r hg hm =>
    obtain ⟨-, htrace⟩ := hm
    simp only [List.map_append, List.map_cons, List.sum_append, List.sum_cons] at hP ⊢
    rw [htrace, List.countP_append, List.countP_append, hP]
    omega

theorem reaches_mem_trace {w : W} {P : Pool S C (W × List (Event S))}
    (hr : Reaches M.traced body G ⟨(w, []), []⟩ P) :
    ∀ t ∈ P.threads, ∀ e ∈ t.hist, e ∈ P.world.2 := by
  refine Reaches.invariant (J := fun P : Pool S C (W × List (Event S)) =>
    ∀ t ∈ P.threads, ∀ e ∈ t.hist, e ∈ P.world.2) (fun P P' hP hs => ?_) (by simp) hr
  cases hs with
  | start _ c =>
    rintro t ht e he
    rcases List.mem_append.1 ht with ht | ht
    · exact hP t ht e he
    · rw [List.mem_singleton.1 ht] at he
      cases he
  | @await w w' xs ys c h op k r hg hm =>
    obtain ⟨-, htrace⟩ := hm
    show ∀ t ∈ xs ++ _ :: ys, ∀ e ∈ t.hist, e ∈ w'.2
    rw [htrace]
    refine forall_threads (fun u hu e he => List.mem_append_left _ (hP u hu e he)) fun e he => ?_
    rcases List.mem_append.1 he with he | he
    · exact List.mem_append_left _ (hP ⟨c, h, .await op k⟩ (by simp) e he)
    · exact List.mem_append_right _ he

end Pool

/-! ## One call after the other -/

/-- The call has not begun, or has ended. -/
def Thread.idle (t : Thread S C) : Bool := t.hist.isEmpty || t.rest.finished

namespace Pool

/-- A step is made only while no other call is under way. -/
def serial : Guard S C W := fun _ ts _ _ => ∀ t ∈ ts, t.idle

def serialCheck : Check S C W := fun _ ts _ _ => ts.all Thread.idle

theorem serial_of_check {w : W} {ts : List (Thread S C)} {t : Thread S C} {e : Event S}
    (h : serialCheck w ts t e) : serial w ts t e := List.all_eq_true.1 h

variable {M : Sem S W} {body : C → Prog S Unit} {G : Guard S C W} {ok : C → W → Event S → Prop}
  {I : W → Prop}

/-- **Calls that run one after the other keep what each of them keeps on its own.** -/
theorem reaches_serial (hbody : ∀ c, (body c).Keeps (M.guard (ok c)) I)
    (hG : ∀ w ts t e, G w ts t e → serial w ts t e ∧ ok t.call w e) {w : W} {P : Pool S C W}
    (hw : I w) (hr : Reaches M body G ⟨w, []⟩ P) : I P.world := by
  suffices h : I P.world ∧ ∀ t ∈ P.threads, (t.hist = [] → t.rest = body t.call) ∧
      (¬ t.idle → t.rest.Wp (M.guard (ok t.call)) (fun w _ => I w) (fun _ => I) P.world) from h.1
  refine Reaches.invariant (J := fun P => I P.world ∧ ∀ t ∈ P.threads,
    (t.hist = [] → t.rest = body t.call) ∧
      (¬ t.idle → t.rest.Wp (M.guard (ok t.call)) (fun w _ => I w) (fun _ => I) P.world))
    (fun P P' hP hs => ?_) ⟨hw, by simp⟩ hr
  obtain ⟨hI, hts⟩ := hP
  cases hs with
  | start _ c =>
    refine ⟨hI, fun t ht => ?_⟩
    rcases List.mem_append.1 ht with ht | ht
    · exact hts t ht
    · rw [List.mem_singleton.1 ht]
      exact ⟨fun _ => rfl, fun hidle => absurd rfl hidle⟩
  | @await w w' xs ys c h op k r hg hm =>
    obtain ⟨hserial, hok⟩ := hG _ _ _ _ hg
    have hthis := hts ⟨c, h, .await op k⟩ (by simp)
    have hwp : (Prog.await op k).Wp (M.guard (ok c)) (fun w _ => I w) (fun _ => I) w := by
      by_cases hh : h = []
      · have hrest : Prog.await op k = body c := hthis.1 hh
        rw [hrest]
        exact hbody c w hI
      · exact hthis.2 (by simp [Thread.idle, hh, Prog.finished])
    have hnext := hwp.2 r w' ⟨hok, hm⟩
    have others (t : Thread S C) (ht : t ∈ xs ++ ys) :
        (t.hist = [] → t.rest = body t.call) ∧
          (¬ t.idle → t.rest.Wp (M.guard (ok t.call)) (fun w _ => I w) (fun _ => I) w') := by
      refine ⟨(hts t ?_).1, fun hn => absurd (hserial t ht) hn⟩
      rcases List.mem_append.1 ht with ht | ht <;> simp [ht]
    refine ⟨Prog.wp_now hnext, fun t ht => ?_⟩
    rcases List.mem_append.1 ht with ht | ht
    · exact others t (List.mem_append_left _ ht)
    · rcases List.mem_cons.1 ht with rfl | ht
      · exact ⟨fun hh => by simp at hh, fun _ => hnext⟩
      · exact others t (List.mem_append_right _ ht)

end Pool

/-! ## Explicit schedules -/

/-- A move of a schedule: start a call, or let the `i`-th started call await with an input. -/
inductive Move (C I : Type)
  | start (c : C)
  | await (i : ℕ) (input : I)

namespace Pool

/-- No condition on the steps. -/
def unchecked : Check S C W := fun _ _ _ _ => true

/-- Play one move, if the step passes the check. -/
def play (handle : I → (op : S.Op) → W → S.Outcome op × W) (body : C → Prog S Unit)
    (check : Check S C W) (P : Pool S C W) : Move C I → Option (Pool S C W)
  | .start c => some ⟨P.world, P.threads ++ [⟨c, [], body c⟩]⟩
  | .await i input =>
    match P.threads[i]? with
    | some ⟨c, h, .await op k⟩ =>
      let x := handle input op P.world
      if check P.world (P.threads.take i ++ P.threads.drop (i + 1)) ⟨c, h, .await op k⟩ ⟨op, x.1⟩ then
        some ⟨x.2, P.threads.set i ⟨c, h ++ [⟨op, x.1⟩], k x.1⟩⟩
      else none
    | _ => none

/-- Play a schedule. -/
def replay (handle : I → (op : S.Op) → W → S.Outcome op × W) (body : C → Prog S Unit)
    (check : Check S C W) : List (Move C I) → Pool S C W → Option (Pool S C W)
  | [], P => some P
  | m :: ms, P => (play handle body check P m).bind (replay handle body check ms)

variable {handle : I → (op : S.Op) → W → S.Outcome op × W} {body : C → Prog S Unit}
  {check : Check S C W} {G : Guard S C W}

theorem step_of_play (hG : ∀ w ts t e, check w ts t e → G w ts t e) {P P' : Pool S C W}
    {m : Move C I} (h : play handle body check P m = some P') :
    Step (Sem.ofHandler handle fun _ _ _ => True) body G P P' := by
  obtain ⟨w, ts⟩ := P
  cases m with
  | start c =>
    cases h
    exact .start _ c
  | await i input =>
    simp only [play] at h
    split at h
    · next c hist op k hi =>
      obtain ⟨hlt, hget⟩ := List.getElem?_eq_some_iff.1 hi
      have hts : ts = ts.take i ++ ⟨c, hist, .await op k⟩ :: ts.drop (i + 1) := by
        rw [← hget, List.getElem_cons_drop, List.take_append_drop]
      split_ifs at h with hc
      cases h
      rw [List.set_eq_take_append_cons_drop, if_pos hlt]
      conv => arg 4; rw [hts]
      exact .await (hG _ _ _ _ hc) ⟨input, trivial, rfl⟩
    · cases h

/-- **A schedule that can be played is a run of the pool.** -/
theorem reaches_of_replay (hG : ∀ w ts t e, check w ts t e → G w ts t e) {ms : List (Move C I)}
    {P P' : Pool S C W} (h : replay handle body check ms P = some P') :
    Reaches (Sem.ofHandler handle fun _ _ _ => True) body G P P' := by
  induction ms generalizing P with
  | nil =>
    cases h
    exact .refl
  | cons m ms ih =>
    obtain ⟨Q, hQ, h⟩ := Option.bind_eq_some_iff.1 h
    exact .head (step_of_play hG hQ) (ih h)

/-- The same with the events of the run. -/
theorem traced_of_replay {G : Guard S C (W × List (Event S))} {check : Check S C (W × List (Event S))}
    (hG : ∀ w ts t e, check w ts t e → G w ts t e) {ms : List (Move C I)}
    {P P' : Pool S C (W × List (Event S))}
    (h : replay (fun i => Sem.recording (handle i)) body check ms P = some P') :
    Reaches (Sem.ofHandler handle fun _ _ _ => True).traced body G P P' :=
  (reaches_of_replay hG h).mono_sem fun _ _ _ _ => Sem.traced_of_recording

end Pool

end Await
