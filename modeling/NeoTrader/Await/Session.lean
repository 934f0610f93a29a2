import NeoTrader.Await.Logic

/-!
# Requests one after the other

A service answers requests; each is a program, run from the world that the request before it left.

* `Visit`, **`Session`**: the requests of a run, each with the inputs that its awaits may meet and the
  worlds before and after it;
* `Session.invariant`: what every request of a run keeps holds wherever a request starts, and at the
  end;
* `Handled`, **`Journal`**: the same with the events of each request, and `Journal.invariant`; `journal`,
  `journal_of_run`: one that can be evaluated.
-/

namespace Await

variable {S : Sig} {W I R α : Type}

/-- One request: what its awaits may meet, and what became of it. -/
structure Visit (S : Sig) (W I R α : Type) where
  request : R
  allows : I → Prop
  before : W
  outcome : Except S.Err α
  after : W

section Session

variable (handle : I → (op : S.Op) → W → S.Outcome op × W) (body : R → Prog S α)

/-- **Requests one after the other.** -/
inductive Session (start : W) : List (Visit S W I R α) → W → Prop
  | nil : Session start [] start
  | snoc {l : List (Visit S W I R α)} {v : Visit S W I R α} : Session start l v.before →
      (body v.request).Exec (Sem.ofHandler handle fun i _ _ => v.allows i) v.before v.outcome v.after →
      Session start (l ++ [v]) v.after

def serve : List (R × I) → W → Option (List (Visit S W I R α) × W)
  | [], w => some ([], w)
  | (request, i) :: l, w => do
    let (outcome, after) ← (body request).execute (handle i) (fun _ _ => true) w
    let (visits, w') ← serve l after
    return (⟨request, (· = i), w, outcome, after⟩ :: visits, w')

end Session

variable {handle : I → (op : S.Op) → W → S.Outcome op × W} {body : R → Prog S α} {start w w₀ : W}
  {l l₀ : List (Visit S W I R α)}

/-- **What every request keeps** holds before each of them, and at the end. -/
theorem Session.invariant {P : W → Prop} (hrun : Session handle body start l w) (hstart : P start)
    (hstep : ∀ v ∈ l, P v.before →
      (body v.request).Exec (Sem.ofHandler handle fun i _ _ => v.allows i) v.before v.outcome v.after →
      P v.after) : (∀ v ∈ l, P v.before) ∧ P w := by
  induction hrun with
  | nil => exact ⟨List.forall_mem_nil _, hstart⟩
  | @snoc l v hrun hx ih =>
    obtain ⟨hbefore, hv⟩ := ih fun v' hv' => hstep v' (List.mem_append_left _ hv')
    have hlast : v ∈ l ++ [v] := List.mem_append_right _ (List.mem_singleton_self v)
    exact ⟨List.forall_mem_append.2 ⟨hbefore, List.forall_mem_singleton.2 hv⟩, hstep v hlast hv hx⟩

theorem Session.exec (hrun : Session handle body start l w) {v : Visit S W I R α} (hv : v ∈ l) :
    (body v.request).Exec (Sem.ofHandler handle fun i _ _ => v.allows i) v.before v.outcome
      v.after := by
  induction hrun with
  | nil => cases hv
  | snoc _ hx ih =>
    rcases List.mem_append.1 hv with hv | hv
    · exact ih hv
    · rw [List.mem_singleton.1 hv]
      exact hx

theorem Session.append_serve {requests : List (R × I)} (hrun : Session handle body start l₀ w₀)
    (h : serve handle body requests w₀ = some (l, w)) : Session handle body start (l₀ ++ l) w := by
  induction requests generalizing l₀ w₀ l with
  | nil =>
    cases h
    rwa [List.append_nil]
  | cons r rs ih =>
    obtain ⟨request, i⟩ := r
    obtain ⟨⟨x, w₁⟩, hx, h⟩ := Option.bind_eq_some_iff.1 h
    obtain ⟨⟨l', w'⟩, hl', h⟩ := Option.bind_eq_some_iff.1 h
    cases h
    have hexec := Prog.exec_of_execute (M := Sem.ofHandler handle fun j _ _ => j = i)
      (fun op w _ => ⟨i, rfl, rfl⟩) hx
    have hfirst : Session handle body start (l₀ ++ [⟨request, (· = i), w₀, x, w₁⟩]) w₁ :=
      .snoc hrun hexec
    have hall := ih hfirst hl'
    rwa [List.append_assoc] at hall

/-- **Requests that can be executed are a run.** -/
theorem session_of_serve {requests : List (R × I)}
    (h : serve handle body requests start = some (l, w)) : Session handle body start l w :=
  Session.nil.append_serve h

theorem serve_singleton {request : R} {i : I}
    (h : serve handle body [(request, i)] w₀ = some (l, w)) :
    ∃ x, l = [⟨request, (· = i), w₀, x, w⟩] := by
  obtain ⟨⟨x, w₁⟩, -, h⟩ := Option.bind_eq_some_iff.1 h
  cases h
  exact ⟨x, rfl⟩

theorem forall_of_serve {requests : List (R × I)} {P : R → (I → Prop) → Prop}
    (hP : ∀ r ∈ requests, P r.1 (· = r.2)) (h : serve handle body requests w₀ = some (l, w)) :
    ∀ v ∈ l, P v.request v.allows := by
  induction requests generalizing w₀ l with
  | nil =>
    cases h
    exact List.forall_mem_nil _
  | cons r rs ih =>
    obtain ⟨request, i⟩ := r
    obtain ⟨⟨x, w₁⟩, hx, h⟩ := Option.bind_eq_some_iff.1 h
    obtain ⟨⟨l', w'⟩, hl', h⟩ := Option.bind_eq_some_iff.1 h
    cases h
    obtain ⟨hfirst, hrest⟩ := List.forall_mem_cons.1 hP
    exact List.forall_mem_cons.2 ⟨hfirst, ih hrest hl'⟩

/-! ## With the events of each request -/

/-- One request, with the events of its run. -/
structure Handled (S : Sig) (W R α : Type) where
  request : R
  before : W
  events : List (Event S)
  outcome : Except S.Err α
  after : W

section Journal

variable (M : Sem S W) (body : R → Prog S α)

/-- The request was run completely, with these events. -/
def Handled.Ran (r : Handled S W R α) : Prop :=
  (body r.request).Exec M.traced (r.before, []) r.outcome (r.after, r.events)

/-- **Requests one after the other, with their events.** -/
inductive Journal (start : W) : List (Handled S W R α) → W → Prop
  | nil : Journal start [] start
  | snoc {l : List (Handled S W R α)} {r : Handled S W R α} : Journal start l r.before →
      r.Ran M body → Journal start (l ++ [r]) r.after

end Journal

section Journal

variable {M : Sem S W} {body : R → Prog S α} {l : List (Handled S W R α)}
  {l₀ : List (Handled S W R α)}

theorem Journal.ran (hrun : Journal M body start l w) {r : Handled S W R α} (hr : r ∈ l) :
    r.Ran M body := by
  induction hrun with
  | nil => cases hr
  | snoc _ hx ih =>
    rcases List.mem_append.1 hr with hr | hr
    · exact ih hr
    · rw [List.mem_singleton.1 hr]
      exact hx

theorem Journal.upTo (hrun : Journal M body start l w) {r : Handled S W R α}
    (h : l₀ ++ [r] <+: l) : Journal M body start (l₀ ++ [r]) r.after := by
  induction hrun with
  | nil => exact absurd (List.prefix_nil.1 h) (by simp)
  | @snoc l r' hrun hx ih =>
    rcases List.prefix_concat_iff.1 h with heq | hp
    · obtain ⟨rfl, hlast⟩ := List.append_inj' heq rfl
      obtain rfl := List.singleton_inj.1 hlast
      exact .snoc hrun hx
    · exact ih hp

theorem Journal.split (hrun : Journal M body start l w) {r : Handled S W R α}
    {l₁ : List (Handled S W R α)} (h : l = l₀ ++ r :: l₁) :
    Journal M body start l₀ r.before ∧ r.Ran M body := by
  have hprefix : l₀ ++ [r] <+: l := ⟨l₁, by rw [h, List.append_assoc]; rfl⟩
  have hupto := hrun.upTo hprefix
  generalize hl : l₀ ++ [r] = l' at hupto
  generalize r.after = w' at hupto
  cases hupto with
  | nil => exact absurd hl (by simp)
  | snoc hbefore hran =>
    obtain ⟨rfl, hr⟩ := List.append_inj' hl rfl
    cases hr
    exact ⟨hbefore, hran⟩

/-- **What every request keeps** holds before each of them, and at the end. -/
theorem Journal.invariant {P : W → Prop} (hrun : Journal M body start l w) (hstart : P start)
    (hstep : ∀ r ∈ l, P r.before → r.Ran M body → P r.after) :
    (∀ r ∈ l, P r.before) ∧ P w := by
  induction hrun with
  | nil => exact ⟨List.forall_mem_nil _, hstart⟩
  | @snoc l r hrun hx ih =>
    obtain ⟨hbefore, hr⟩ := ih fun r' hr' => hstep r' (List.mem_append_left _ hr')
    have hlast : r ∈ l ++ [r] := List.mem_append_right _ (List.mem_singleton_self r)
    exact ⟨List.forall_mem_append.2 ⟨hbefore, List.forall_mem_singleton.2 hr⟩, hstep r hlast hr hx⟩

/-- Requests with one input each, and their events. -/
def journal (handle : I → (op : S.Op) → W → S.Outcome op × W) (body : R → Prog S α) :
    List (R × I) → W → Option (List (Handled S W R α) × W)
  | [], w => some ([], w)
  | (request, i) :: l, w => do
    let (outcome, after, events) ← (body request).execute (Sem.recording (handle i))
      (fun _ _ => true) (w, [])
    let (rest, w') ← journal handle body l after
    return (⟨request, w, events, outcome, after⟩ :: rest, w')

theorem Journal.append_run {requests : List (R × I)} {A : I → Prop}
    (hM : ∀ i op w, A i → M.rel op w (handle i op w).1 (handle i op w).2)
    (hA : ∀ r ∈ requests, A r.2) (hrun : Journal M body start l₀ w₀)
    (h : journal handle body requests w₀ = some (l, w)) : Journal M body start (l₀ ++ l) w := by
  induction requests generalizing l₀ w₀ l with
  | nil =>
    cases h
    rwa [List.append_nil]
  | cons r rs ih =>
    obtain ⟨request, i⟩ := r
    obtain ⟨⟨x, w₁, events⟩, hx, h⟩ := Option.bind_eq_some_iff.1 h
    obtain ⟨⟨l', w'⟩, hl', h⟩ := Option.bind_eq_some_iff.1 h
    cases h
    obtain ⟨hi, hrest⟩ := List.forall_mem_cons.1 hA
    have hexec := Prog.exec_of_execute (M := M.traced) (fun op w _ => ⟨hM i op w.1 hi, rfl⟩) hx
    have hfirst : Journal M body start (l₀ ++ [⟨request, w₀, events, x, w₁⟩]) w₁ :=
      .snoc hrun hexec
    have hall := ih hrest hfirst hl'
    rwa [List.append_assoc] at hall

/-- **Requests that can be executed are a journal.** -/
theorem journal_of_run {requests : List (R × I)} {A : I → Prop}
    (hM : ∀ i op w, A i → M.rel op w (handle i op w).1 (handle i op w).2)
    (hA : ∀ r ∈ requests, A r.2) (h : journal handle body requests start = some (l, w)) :
    Journal M body start l w := Journal.nil.append_run hM hA h

end Journal

end Await
