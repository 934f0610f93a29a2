import NeoTrader.Await.Prog

/-!
# Weakest preconditions of awaiting programs

A semantics `Sem S W` says which outcomes an operation of `S` may have in a world `W`, and which
world it leaves. `Prog.Wp M pre Q p w`: every run of `p` from `w` awaits only operations that `pre`
allows and ends in `Q`.

* `Event`, `Sem`, `Sem.guard`, `Sem.traced`, and `histSem`: the semantics whose world is the list of
  events so far and that allows every outcome, for facts about what a program does whatever it is
  answered;
* `Prog.Exec`: the complete runs of a program; **`Wp.exec`**: they end in the postcondition, and
  `Exec.exists`: there is one; `execute`: a run that can be evaluated.
-/

namespace Await

/-- An event: an operation and its outcome. -/
abbrev Event (S : Sig) : Type := (op : S.Op) × S.Outcome op

/-- The outcomes of an operation in a world, with the world each of them leaves. -/
structure Sem (S : Sig) (W : Type) where
  rel : (op : S.Op) → W → S.Outcome op → W → Prop

namespace Sem

variable {S : Sig} {W : Type}

/-- The semantics given by a handler, driven by the inputs `allow` permits. -/
def ofHandler {I : Type} (handle : I → (op : S.Op) → W → S.Outcome op × W)
    (allow : I → S.Op → W → Prop) : Sem S W :=
  ⟨fun op w r w' => ∃ i, allow i op w ∧ handle i op w = (r, w')⟩

/-- Only the events that the guard permits in the world before them. -/
def guard (M : Sem S W) (G : W → Event S → Prop) : Sem S W :=
  ⟨fun op w r w' => G w ⟨op, r⟩ ∧ M.rel op w r w'⟩

/-- The semantics whose world also records the events. -/
def traced (M : Sem S W) : Sem S (W × List (Event S)) :=
  ⟨fun op w r w' => M.rel op w.1 r w'.1 ∧ w'.2 = w.2 ++ [⟨op, r⟩]⟩

/-- A handler that also records the events. -/
def recording (handle : (op : S.Op) → W → S.Outcome op × W) (op : S.Op)
    (x : W × List (Event S)) : S.Outcome op × (W × List (Event S)) :=
  ((handle op x.1).1, (handle op x.1).2, x.2 ++ [⟨op, (handle op x.1).1⟩])

/-- What a recording handler does is traced. -/
theorem traced_of_recording {I : Type} {handle : I → (op : S.Op) → W → S.Outcome op × W}
    {op : S.Op} {w w' : W × List (Event S)} {r : S.Outcome op}
    (h : (ofHandler (fun i => recording (handle i)) fun _ _ _ => True).rel op w r w') :
    (ofHandler handle fun _ _ _ => True).traced.rel op w r w' := by
  obtain ⟨i, -, h⟩ := h
  cases h
  exact ⟨⟨i, trivial, rfl⟩, rfl⟩

/-- Every operation has an outcome in every world. -/
def Total (M : Sem S W) : Prop := ∀ op w, ∃ r w', M.rel op w r w'

end Sem

/-- **The history semantics**: any outcome, and the events are recorded. -/
def histSem (S : Sig) : Sem S (List (Event S)) := ⟨fun op h r h' => h' = h ++ [⟨op, r⟩]⟩

namespace Prog

variable {S : Sig} {W : Type} {α β : Type}

/-- **Every run of the program** from `w` awaits only what `pre` allows and ends in `Q`. -/
def Wp (M : Sem S W) (pre : W → S.Op → Prop) (Q : Except S.Err α → W → Prop) :
    Prog S α → W → Prop
  | .ret a, w => Q (.ok a) w
  | .throw e, w => Q (.error e) w
  | .await op k, w => pre w op ∧ ∀ r w', M.rel op w r w' → (k r).Wp M pre Q w'

section Rules

variable {M : Sem S W} {pre : W → S.Op → Prop}

@[simp] theorem wp_ret {Q : Except S.Err α → W → Prop} {a : α} {w : W} :
    (Prog.ret a).Wp M pre Q w ↔ Q (.ok a) w := Iff.rfl

@[simp] theorem wp_throw {Q : Except S.Err α → W → Prop} {e : S.Err} {w : W} :
    (Prog.throw e : Prog S α).Wp M pre Q w ↔ Q (.error e) w := Iff.rfl

theorem wp_await {Q : Except S.Err α → W → Prop} {op : S.Op} {k : S.Outcome op → Prog S α} {w : W} :
    (Prog.await op k).Wp M pre Q w ↔
      pre w op ∧ ∀ r w', M.rel op w r w' → (k r).Wp M pre Q w' := Iff.rfl

/-- The postcondition that runs `f` on a result and lets an error through. -/
def bindPost (M : Sem S W) (pre : W → S.Op → Prop) (Q : Except S.Err β → W → Prop)
    (f : α → Prog S β) : Except S.Err α → W → Prop
  | .ok a, w => (f a).Wp M pre Q w
  | .error e, w => Q (.error e) w

@[simp] theorem bindPost_ok {Q : Except S.Err β → W → Prop} {f : α → Prog S β} {a : α} {w : W} :
    bindPost M pre Q f (.ok a) w ↔ (f a).Wp M pre Q w := Iff.rfl

@[simp] theorem bindPost_error {Q : Except S.Err β → W → Prop} {f : α → Prog S β} {e : S.Err}
    {w : W} : bindPost M pre Q f (.error e) w ↔ Q (.error e) w := Iff.rfl

theorem wp_bind {Q : Except S.Err β → W → Prop} {f : α → Prog S β} (p : Prog S α) (w : W) :
    (p >>= f).Wp M pre Q w ↔ p.Wp M pre (bindPost M pre Q f) w := by
  induction p generalizing w with
  | ret a => rfl
  | throw e => rfl
  | await op k ih => simp only [await_bind, wp_await, ih]

theorem wp_attempt {Q : Except S.Err (Except S.Err α) → W → Prop} (p : Prog S α) (w : W) :
    p.attempt.Wp M pre Q w ↔ p.Wp M pre (fun r => Q (.ok r)) w := by
  induction p generalizing w with
  | ret a => rfl
  | throw e => rfl
  | await op k ih => simp only [attempt_await, wp_await, ih]

@[simp] theorem wp_ofOutcome {Q : Except S.Err α → W → Prop} {r : Except S.Err α} {w : W} :
    (ofOutcome r).Wp M pre Q w ↔ Q r w := by
  cases r <;> rfl

theorem wp_perform {op : S.Op} {Q : S.Outcome op → W → Prop} {w : W} :
    (perform op).Wp M pre Q w ↔ pre w op ∧ ∀ r w', M.rel op w r w' → Q r w' := by
  simp only [perform, wp_await, wp_ofOutcome]

/-- A program that has ended is in its postcondition. -/
theorem wp_finished {Q : Except S.Err α → W → Prop} {p : Prog S α} {w : W} (hp : p.finished)
    (h : p.Wp M pre Q w) : ∃ r, Q r w := by
  cases p with
  | ret a => exact ⟨_, h⟩
  | throw e => exact ⟨_, h⟩
  | await op k => exact absurd hp Bool.false_ne_true

/-- One awaited operation and what follows its answer. -/
theorem wp_perform_bind {op : S.Op} {Q : Except S.Err β → W → Prop} {f : S.Ans op → Prog S β}
    {w : W} : (perform op >>= f).Wp M pre Q w ↔
      pre w op ∧ ∀ r w', M.rel op w r w' → bindPost M pre Q f r w' := by
  rw [wp_bind, wp_perform]

/-- One guarded operation and what follows its outcome. -/
theorem wp_attempt_perform_bind {op : S.Op} {Q : Except S.Err β → W → Prop}
    {f : S.Outcome op → Prog S β} {w : W} : ((perform op).attempt >>= f).Wp M pre Q w ↔
      pre w op ∧ ∀ r w', M.rel op w r w' → (f r).Wp M pre Q w' := by
  rw [attempt_perform]
  rfl

/-- A guarded program and what follows its outcome. -/
theorem wp_attempt_bind {Q : Except S.Err β → W → Prop} {p : Prog S α}
    {f : Except S.Err α → Prog S β} {w : W} : (p.attempt >>= f).Wp M pre Q w ↔
      p.Wp M pre (fun r => (f r).Wp M pre Q) w := by
  rw [wp_bind, wp_attempt]
  rfl

/-- A weaker postcondition, and a weaker demand on the awaited operations. -/
theorem wp_mono {pre' : W → S.Op → Prop} {Q Q' : Except S.Err α → W → Prop}
    (hpre : ∀ w op, pre w op → pre' w op) (hQ : ∀ r w, Q r w → Q' r w) {p : Prog S α} {w : W}
    (h : p.Wp M pre Q w) : p.Wp M pre' Q' w := by
  induction p generalizing w with
  | ret a => exact hQ _ _ h
  | throw e => exact hQ _ _ h
  | await op k ih => exact ⟨hpre _ _ h.1, fun r w' hr => ih r (h.2 r w' hr)⟩

theorem wp_post {Q Q' : Except S.Err α → W → Prop} (hQ : ∀ r w, Q r w → Q' r w) {p : Prog S α}
    {w : W} (h : p.Wp M pre Q w) : p.Wp M pre Q' w := wp_mono (fun _ _ h => h) hQ h

/-- Every program meets the empty demand. -/
theorem wp_any (p : Prog S α) (w : W) : p.Wp M (fun _ _ => True) (fun _ _ => True) w := by
  induction p generalizing w with
  | ret a => trivial
  | throw e => trivial
  | await op k ih => exact ⟨trivial, fun r w' _ => ih r w'⟩

theorem wp_and {pre' : W → S.Op → Prop} {Q Q' : Except S.Err α → W → Prop} {p : Prog S α} {w : W}
    (h : p.Wp M pre Q w) (h' : p.Wp M pre' Q' w) :
    p.Wp M (fun w op => pre w op ∧ pre' w op) (fun r w => Q r w ∧ Q' r w) w := by
  induction p generalizing w with
  | ret a => exact ⟨h, h'⟩
  | throw e => exact ⟨h, h'⟩
  | await op k ih => exact ⟨⟨h.1, h'.1⟩, fun r w' hr => ih r (h.2 r w' hr) (h'.2 r w' hr)⟩

/-- A program bound to another, from a specification of the first. -/
theorem wp_bind_of {P : Except S.Err α → W → Prop} {Q : Except S.Err β → W → Prop}
    {p : Prog S α} {f : α → Prog S β} {w : W} (hp : p.Wp M pre P w)
    (hok : ∀ a w, P (.ok a) w → (f a).Wp M pre Q w)
    (herr : ∀ e w, P (.error e) w → Q (.error e) w) : (p >>= f).Wp M pre Q w := by
  rw [wp_bind]
  refine wp_post (fun r w' hr => ?_) hp
  cases r with
  | ok a => exact hok a w' hr
  | error e => exact herr e w' hr

/-- A demand on returned results; a thrown error is let through. -/
def onOk {ε : Type} (P : α → W → Prop) : Except ε α → W → Prop
  | .ok a, w => P a w
  | .error _, _ => True

/-- A program bound to another, where only returned results matter. -/
theorem wp_bind_onOk {P : α → W → Prop} {Q : β → W → Prop} {p : Prog S α} {f : α → Prog S β} {w : W}
    (hp : p.Wp M pre (onOk P) w) (hf : ∀ a w, P a w → (f a).Wp M pre (onOk Q) w) :
    (p >>= f).Wp M pre (onOk Q) w := wp_bind_of hp hf fun _ _ _ => trivial

theorem wp_ite {Q : Except S.Err α → W → Prop} {c : Prop} [Decidable c] {p q : Prog S α} {w : W}
    (hp : c → p.Wp M pre Q w) (hq : ¬ c → q.Wp M pre Q w) :
    (if c then p else q).Wp M pre Q w := by
  split
  · next hc => exact hp hc
  · next hc => exact hq hc

theorem wp_collect {I : W → Prop} {f : β → Prog S α} {l : List β}
    (hf : ∀ b ∈ l, ∀ w, I w → (f b).Wp M pre (fun _ => I) w) {w : W} (hw : I w) :
    (collect l f).Wp M pre (fun _ => I) w := by
  induction l generalizing w with
  | nil => exact hw
  | cons b l ih =>
    refine wp_bind_of (hf b List.mem_cons_self w hw) (fun _ w' hw' => ?_) (fun _ _ h => h)
    refine wp_bind_of (ih (fun c hc => hf c (List.mem_cons_of_mem _ hc)) hw')
      (fun _ _ h => h) (fun _ _ h => h)

/-- A loop that changes nothing, and whose rounds each return what `g` says. -/
theorem wp_collect_map {f : β → Prog S α} {g : β → α} {l : List β} {w : W}
    (hf : ∀ b ∈ l, (f b).Wp M pre (fun r w' => w' = w ∧ ∀ a, r = .ok a → a = g b) w) :
    (collect l f).Wp M pre (fun r w' => w' = w ∧ ∀ as, r = .ok as → as = l.map g) w := by
  induction l with
  | nil =>
    refine ⟨rfl, fun as has => ?_⟩
    cases has
    rfl
  | cons b l ih =>
    have ih := ih fun c hc => hf c (List.mem_cons_of_mem _ hc)
    refine wp_bind_of (hf b List.mem_cons_self) ?_ fun _ _ h => ⟨h.1, fun _ has => by cases has⟩
    rintro a w' ⟨rfl, ha⟩
    refine wp_bind_of ih ?_ fun _ _ h => ⟨h.1, fun _ has => by cases has⟩
    rintro as w'' ⟨rfl, has⟩
    refine ⟨rfl, fun as' has' => ?_⟩
    cases has'
    rw [ha a rfl, has as rfl, List.map_cons]

/-- A semantics with fewer steps. -/
theorem wp_sem_mono {M' : Sem S W} (hM : ∀ op w r w', M'.rel op w r w' → M.rel op w r w')
    {Q : Except S.Err α → W → Prop} {p : Prog S α} {w : W} (h : p.Wp M pre Q w) :
    p.Wp M' pre Q w := by
  induction p generalizing w with
  | ret a => exact h
  | throw e => exact h
  | await op k ih => exact ⟨h.1, fun r w' hr => ih r (h.2 r w' (hM _ _ _ _ hr))⟩

/-- A program over a smaller signature, inside a larger one. -/
theorem wp_embed {T : Sig} {N : Sem T W} (e : Emb S T)
    (hrel : ∀ op w r w', N.rel (e.op op) w r w' → M.rel op w (e.back op r) w')
    {Q : Except T.Err α → W → Prop} {p : Prog S α} {w : W}
    (hp : p.Wp M pre (fun r => Q (r.mapError e.err)) w) :
    (p.embed e).Wp N (fun _ _ => True) Q w := by
  induction p generalizing w with
  | ret a => exact hp
  | throw x => exact hp
  | await op k ih => exact ⟨trivial, fun r w' hr => ih _ (hp.2 _ w' (hrel op w r w' hr))⟩

end Rules

/-! ## Whatever it is answered -/

/-- The program awaits only what `pre` allows after the events so far, whatever it is answered and
whatever happened before it. -/
def Always (pre : List (Event S) → S.Op → Prop) (p : Prog S α) : Prop :=
  ∀ h, p.Wp (histSem S) pre (fun _ _ => True) h

section Always

variable {pre : List (Event S) → S.Op → Prop}

theorem always_ret (a : α) : Always pre (.ret a : Prog S α) := fun _ => trivial

theorem always_throw (e : S.Err) : Always pre (.throw e : Prog S α) := fun _ => trivial

theorem always_ofOutcome (r : Except S.Err α) : Always pre (ofOutcome r) := by
  cases r
  · exact always_throw _
  · exact always_ret _

theorem always_perform {op : S.Op} (hop : ∀ h, pre h op) : Always pre (perform op) :=
  fun h => wp_perform.2 ⟨hop h, fun _ _ _ => trivial⟩

theorem always_bind {p : Prog S α} {f : α → Prog S β} (hp : Always pre p)
    (hf : ∀ a, Always pre (f a)) : Always pre (p >>= f) :=
  fun h => wp_bind_of (hp h) (fun a h' _ => hf a h') fun _ _ _ => trivial

theorem always_attempt {p : Prog S α} (hp : Always pre p) : Always pre p.attempt :=
  fun h => (wp_attempt p h).2 (hp h)

theorem always_ite {c : Prop} [Decidable c] {p q : Prog S α} (hp : c → Always pre p)
    (hq : ¬ c → Always pre q) : Always pre (if c then p else q) := by
  split
  · next hc => exact hp hc
  · next hc => exact hq hc

theorem always_forEach {f : β → Prog S Unit} {l : List β} (hf : ∀ b, Always pre (f b)) :
    Always pre (forEach l f) := by
  induction l with
  | nil => exact always_ret ()
  | cons b l ih => exact always_bind (hf b) fun _ => ih

theorem always_collect {f : β → Prog S α} {l : List β} (hf : ∀ b, Always pre (f b)) :
    Always pre (collect l f) := by
  induction l with
  | nil => exact always_ret _
  | cons b l ih => exact always_bind (hf b) fun _ => always_bind ih fun _ => always_ret _

theorem always_of_forall (hpre : ∀ h op, pre h op) (p : Prog S α) : Always pre p := by
  induction p with
  | ret a => exact always_ret a
  | throw e => exact always_throw e
  | await op k ih => exact fun h => ⟨hpre h op, fun r h' _ => ih r h'⟩

/-- A program over a smaller signature awaits only embedded operations. -/
theorem always_embed {T : Sig} (e : Emb S T) {q : T.Op → Prop} (hq : ∀ op, q (e.op op))
    (p : Prog S α) : Always (fun _ => q) (p.embed e) := by
  induction p with
  | ret a => exact always_ret a
  | throw x => exact always_throw (e.err x)
  | await op k ih => exact fun h => ⟨hq op, fun r h' _ => ih (e.back op r) h'⟩

/-- A program of a smaller signature, inside a larger one. -/
theorem Always.embed {T : Sig} (e : Emb S T) {q : S.Op → Prop} {q' : T.Op → Prop}
    (hq : ∀ op, q op → q' (e.op op)) {p : Prog S α} (hp : Always (fun _ => q) p) :
    Always (fun _ => q') (p.embed e) := by
  intro h
  replace hp := hp []
  generalize ([] : List (Event S)) = before at hp
  induction p generalizing before h with
  | ret a => trivial
  | throw x => trivial
  | await op k ih =>
    exact ⟨hq op hp.1, fun r h' _ => ih (e.back op r) h' _ (hp.2 (e.back op r) _ rfl)⟩

theorem Always.mono {pre' : List (Event S) → S.Op → Prop} (hpre : ∀ h op, pre h op → pre' h op)
    {p : Prog S α} (hp : Always pre p) : Always pre' p :=
  fun h => wp_mono hpre (fun _ _ _ => trivial) (hp h)

/-- A history only grows. -/
theorem wp_history (p : Prog S α) (h₀ h : List (Event S)) (hh : h₀ <+: h) :
    p.Wp (histSem S) (fun _ _ => True) (fun _ h' => h₀ <+: h') h := by
  induction p generalizing h with
  | ret a => exact hh
  | throw e => exact hh
  | await op k ih =>
    refine ⟨trivial, fun r h' hr => ih r h' ?_⟩
    rw [hr]
    exact hh.trans (List.prefix_append _ _)

theorem Always.grows {p : Prog S α} (hp : Always pre p) (h : List (Event S)) :
    p.Wp (histSem S) pre (fun _ h' => h <+: h') h :=
  wp_mono (fun _ _ h => h.1) (fun _ _ h => h.2) (wp_and (hp h) (wp_history p h h List.prefix_rfl))

/-- What follows a specified program may be awaited after any history. -/
theorem wp_bind_always {Q : Except S.Err α → List (Event S) → Prop} {p : Prog S α}
    {f : α → Prog S β} {h : List (Event S)} (hp : p.Wp (histSem S) pre Q h)
    (hf : ∀ a, Always pre (f a)) : (p >>= f).Wp (histSem S) pre (fun _ _ => True) h :=
  wp_bind_of hp (fun a h' _ => hf a h') fun _ _ _ => trivial

/-- A property of histories that a specified program keeps. -/
theorem wp_carries {pre : List (Event S) → S.Op → Prop} {I : List (Event S) → Prop}
    {Q : Except S.Err α → List (Event S) → Prop} {p : Prog S α} {h : List (Event S)}
    (hp : p.Wp (histSem S) pre Q h) (hI : ∀ h e, I h → pre h e.1 → I (h ++ [e])) (hh : I h) :
    p.Wp (histSem S) (fun h op => pre h op ∧ I h) (fun r h => Q r h ∧ I h) h := by
  induction p generalizing h with
  | ret a => exact ⟨hp, hh⟩
  | throw e => exact ⟨hp, hh⟩
  | await op k ih =>
    refine ⟨⟨hp.1, hh⟩, fun r h' hr => ?_⟩
    refine ih r (hp.2 r h' hr) ?_
    rw [hr]
    exact hI h ⟨op, r⟩ hh hp.1

/-- A property of histories that the awaited operations keep. -/
theorem Always.carries {q : S.Op → Prop} {I : List (Event S) → Prop} {p : Prog S α}
    (hp : Always (fun _ => q) p) (hI : ∀ h e, I h → q e.1 → I (h ++ [e])) {h : List (Event S)}
    (hh : I h) : p.Wp (histSem S) (fun h op => q op ∧ I h) (fun _ => I) h :=
  wp_post (fun _ _ hr => hr.2) (wp_carries (hp h) hI hh)

/-- A demand that only has to hold after histories that an invariant allows. -/
theorem Always.within {I : List (Event S) → Prop} {p : Prog S α}
    (hp : Always (fun h op => I h → pre h op) p) (hI : ∀ h e, I h → I (h ++ [e]))
    {h : List (Event S)} (hh : I h) : p.Wp (histSem S) pre (fun _ _ => True) h := by
  replace hp := hp h
  induction p generalizing h with
  | ret a => trivial
  | throw e => trivial
  | await op k ih =>
    refine ⟨hp.1 hh, fun r h' hr => ih r ?_ (hp.2 r h' hr)⟩
    rw [hr]
    exact hI h ⟨op, r⟩ hh

end Always

/-! ## What a program learns -/

/-- **What the result of a program says about the events so far.** -/
def Learns (F : α → List (Event S) → Prop) (p : Prog S α) : Prop :=
  ∀ h, p.Wp (histSem S) (fun _ _ => True) (onOk fun a h' => h <+: h' ∧ F a h') h

section Learns

variable {Q : α → List (Event S) → Prop} {h : List (Event S)}

/-- An answer is recorded. -/
theorem wp_ask {op : S.Op} {f : S.Ans op → Prog S α}
    (hf : ∀ a, (f a).Wp (histSem S) (fun _ _ => True) (onOk Q) (h ++ [⟨op, .ok a⟩])) :
    (perform op >>= f).Wp (histSem S) (fun _ _ => True) (onOk Q) h := by
  refine wp_perform_bind.2 ⟨trivial, ?_⟩
  rintro r h' rfl
  cases r with
  | error e => trivial
  | ok a => exact hf a

/-- An outcome is recorded. -/
theorem wp_ask_attempt {op : S.Op} {f : S.Outcome op → Prog S α}
    (hf : ∀ r, (f r).Wp (histSem S) (fun _ _ => True) (onOk Q) (h ++ [⟨op, r⟩])) :
    ((perform op).attempt >>= f).Wp (histSem S) (fun _ _ => True) (onOk Q) h := by
  refine wp_attempt_perform_bind.2 ⟨trivial, ?_⟩
  rintro r h' rfl
  exact hf r

/-- Whatever is awaited, the events before stay. -/
theorem learns_nothing (p : Prog S α) : Learns (fun _ _ => True) p := fun h =>
  wp_post (fun r _ hp => by
    cases r with
    | error e => trivial
    | ok a => exact ⟨hp, trivial⟩) (wp_history p h h List.prefix_rfl)

/-- What follows a program may use what the program has learned. -/
theorem Learns.bind {pre : List (Event S) → S.Op → Prop} {F : α → List (Event S) → Prop}
    {p : Prog S α} {f : α → Prog S β} (hl : Learns F p) (hp : Always pre p)
    (hf : ∀ a h', h <+: h' → F a h' → (f a).Wp (histSem S) pre (fun _ _ => True) h') :
    (p >>= f).Wp (histSem S) pre (fun _ _ => True) h := by
  refine wp_bind_of (P := onOk fun a h' => h <+: h' ∧ F a h') ?_ ?_ fun _ _ _ => trivial
  · exact wp_mono (fun _ _ hpre => hpre.1) (fun _ _ hpost => hpost.2) (wp_and (hp h) (hl h))
  · exact fun a h' hpost => hf a h' hpost.1 hpost.2

end Learns

/-! ## Where errors come from -/

/-- An awaited operation has been rejected with the error. -/
def Rejected (h : List (Event S)) (e : S.Err) : Prop := ∃ op, (⟨op, .error e⟩ : Event S) ∈ h

/-- **The program throws nothing of its own**, only what an awaited operation was rejected with. -/
def Candid (p : Prog S α) : Prop :=
  ∀ h, p.Wp (histSem S) (fun _ _ => True) (fun r h' => ∀ e, r = .error e → Rejected h' e) h

section Candid

theorem candid_ret (a : α) : Candid (.ret a : Prog S α) := fun _ e he => by cases he

theorem candid_perform (op : S.Op) : Candid (perform op) := by
  refine fun h => wp_perform.2 ⟨trivial, ?_⟩
  rintro r h' rfl e rfl
  exact ⟨op, List.mem_append_right _ List.mem_cons_self⟩

theorem Candid.bind {p : Prog S α} {f : α → Prog S β} (hp : Candid p) (hf : ∀ a, Candid (f a)) :
    Candid (p >>= f) :=
  fun h => wp_bind_of (hp h) (fun a h' _ => hf a h') fun e h' he e' he' => he e' (by
    cases he'
    rfl)

/-- A guarded program throws nothing at all. -/
theorem candid_attempt (p : Prog S α) : Candid p.attempt :=
  fun h => (wp_attempt p h).2 (wp_mono (fun _ _ _ => trivial) (fun _ _ _ _ he => by cases he)
    (wp_any p h))

theorem candid_ite {c : Prop} [Decidable c] {p q : Prog S α} (hp : c → Candid p)
    (hq : ¬ c → Candid q) : Candid (if c then p else q) := by
  split
  · next hc => exact hp hc
  · next hc => exact hq hc

end Candid

/-! ## What a program may return -/

/-- **Whatever it is answered**, a returned result has the property. -/
def Returns (F : α → Prop) : Prog S α → Prop
  | .ret a => F a
  | .throw _ => True
  | .await _ k => ∀ r, (k r).Returns F

section Returns

variable {F : α → Prop} {G : β → Prop}

theorem returns_ofOutcome {r : Except S.Err α} (h : ∀ a, r = .ok a → F a) :
    (ofOutcome r : Prog S α).Returns F := by
  cases r with
  | ok a => exact h a rfl
  | error e => trivial

theorem returns_true (p : Prog S α) : p.Returns fun _ => True := by
  induction p with
  | ret a => trivial
  | throw e => trivial
  | await op k ih => exact fun r => ih r

theorem Returns.mono {F' : α → Prop} {p : Prog S α} (hp : p.Returns F) (hF : ∀ a, F a → F' a) :
    p.Returns F' := by
  induction p with
  | ret a => exact hF a hp
  | throw e => trivial
  | await op k ih => exact fun r => ih r (hp r)

theorem Returns.bind {p : Prog S α} {f : α → Prog S β} (hp : p.Returns F)
    (hf : ∀ a, F a → (f a).Returns G) : (p >>= f).Returns G := by
  induction p with
  | ret a => exact hf a hp
  | throw e => trivial
  | await op k ih => exact fun r => ih r (hp r)

/-- What the first program returns does not matter. -/
theorem returns_bind {p : Prog S α} {f : α → Prog S β} (hf : ∀ a, (f a).Returns G) :
    (p >>= f).Returns G := (returns_true p).bind fun a _ => hf a

theorem Returns.attempt {p : Prog S α} (hp : p.Returns F) :
    p.attempt.Returns fun r => ∀ a, r = .ok a → F a := by
  induction p with
  | ret a =>
    rintro b ⟨⟩
    exact hp
  | throw e => exact fun b hb => by cases hb
  | await op k ih => exact fun r => ih r (hp r)

theorem returns_ite {c : Prop} [Decidable c] {p q : Prog S α} (hp : c → p.Returns F)
    (hq : ¬ c → q.Returns F) : (if c then p else q).Returns F := by
  split
  · next hc => exact hp hc
  · next hc => exact hq hc

end Returns

/-! ## Complete runs -/

/-- A complete run of a program: its result and the world it leaves. -/
inductive Exec (M : Sem S W) : Prog S α → W → Except S.Err α → W → Prop
  | ret (a : α) (w : W) : Exec M (.ret a) w (.ok a) w
  | throw (e : S.Err) (w : W) : Exec M (.throw e) w (.error e) w
  | await {op : S.Op} {k : S.Outcome op → Prog S α} {w w' w'' : W} {r : S.Outcome op}
      {x : Except S.Err α} : M.rel op w r w' → Exec M (k r) w' x w'' →
      Exec M (.await op k) w x w''

variable {M : Sem S W} {pre : W → S.Op → Prop} {Q : Except S.Err α → W → Prop}

/-- **A complete run ends in the postcondition.** -/
theorem Wp.exec {p : Prog S α} {w w' : W} {x : Except S.Err α} (h : p.Wp M pre Q w)
    (hx : p.Exec M w x w') : Q x w' := by
  induction hx with
  | ret a w => exact h
  | throw e w => exact h
  | await hr _ ih => exact ih (h.2 _ _ hr)

/-- A program whose complete runs all end in `Q` has `Q` as its postcondition. -/
theorem wp_of_exec {p : Prog S α} {w : W} (h : ∀ x w', p.Exec M w x w' → Q x w') :
    p.Wp M (fun _ _ => True) Q w := by
  induction p generalizing w with
  | ret a => exact h _ _ (.ret a w)
  | throw e => exact h _ _ (.throw e w)
  | await op k ih => exact ⟨trivial, fun r w' hr => ih r fun x w'' hx => h _ _ (.await hr hx)⟩

/-- What a program may return, as a postcondition. -/
theorem Returns.wp {F : α → Prop} {p : Prog S α} (h : p.Returns F) (w : W) :
    p.Wp M (fun _ _ => True) (onOk fun a _ => F a) w := by
  induction p generalizing w with
  | ret a => exact h
  | throw e => trivial
  | await op k ih => exact ⟨trivial, fun r w' _ => ih r (h r) w'⟩

/-- A complete run returns what the program may return. -/
theorem Returns.exec {F : α → Prop} {p : Prog S α} (h : p.Returns F) {w w' : W} {a : α}
    (hx : p.Exec M w (.ok a) w') : F a := by
  generalize hy : (Except.ok a : Except S.Err α) = y at hx
  induction hx with
  | ret b w =>
    cases hy
    exact h
  | throw e w => cases hy
  | await _ _ ih => exact ih (h _) hy

/-- A complete run of a semantics with fewer steps. -/
theorem Exec.mono {M' : Sem S W} (hM : ∀ op w r w', M.rel op w r w' → M'.rel op w r w')
    {p : Prog S α} {w w' : W} {x : Except S.Err α} (h : p.Exec M w x w') : p.Exec M' w x w' := by
  induction h with
  | ret a w => exact .ret a w
  | throw e w => exact .throw e w
  | await hr _ ih => exact .await (hM _ _ _ _ hr) ih

/-- A complete run, with its events recorded after those of the past. -/
theorem Exec.traced {p : Prog S α} {w w' : W} {x : Except S.Err α} (hx : p.Exec M w x w')
    (h : List (Event S)) : ∃ h', p.Exec M.traced (w, h) x (w', h') := by
  induction hx generalizing h with
  | ret a w => exact ⟨h, .ret a (w, h)⟩
  | throw e w => exact ⟨h, .throw e (w, h)⟩
  | @await op k w w₁ w₂ r x hr _ ih =>
    obtain ⟨h', hx'⟩ := ih (h ++ [⟨op, r⟩])
    have hrel : M.traced.rel op (w, h) r (w₁, h ++ [⟨op, r⟩]) := ⟨hr, rfl⟩
    exact ⟨h', .await hrel hx'⟩

/-- Where every operation is answered, every program has a complete run. -/
theorem Exec.exists (hM : M.Total) (p : Prog S α) (w : W) : ∃ x w', p.Exec M w x w' := by
  induction p generalizing w with
  | ret a => exact ⟨_, _, .ret a w⟩
  | throw e => exact ⟨_, _, .throw e w⟩
  | await op k ih =>
    obtain ⟨r, w', hr⟩ := hM op w
    obtain ⟨x, w'', hx⟩ := ih r w'
    exact ⟨x, w'', .await hr hx⟩

/-- A run with a fixed handler, as long as each operation passes the check. -/
def execute (handle : (op : S.Op) → W → S.Outcome op × W) (check : S.Op → W → Bool) :
    Prog S α → W → Option (Except S.Err α × W)
  | .ret a, w => some (.ok a, w)
  | .throw e, w => some (.error e, w)
  | .await op k, w =>
    if check op w then (k (handle op w).1).execute handle check (handle op w).2 else none

/-- **A run that can be executed is a complete run.** -/
theorem exec_of_execute {handle : (op : S.Op) → W → S.Outcome op × W} {check : S.Op → W → Bool}
    (hM : ∀ op w, check op w → M.rel op w (handle op w).1 (handle op w).2) {p : Prog S α} {w : W}
    {y : Except S.Err α × W} (h : p.execute handle check w = some y) : p.Exec M w y.1 y.2 := by
  induction p generalizing w with
  | ret a =>
    cases h
    exact .ret a w
  | throw e =>
    cases h
    exact .throw e w
  | await op k ih =>
    rw [execute] at h
    split_ifs at h with hc
    exact .await (hM op w hc) (ih _ h)

end Prog

end Await
