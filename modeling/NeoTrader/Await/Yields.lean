import NeoTrader.Await.Logic

/-!
# What a program has awaited, part by part

* `Prog.Yields`: each run of a program from a world ends in `Φ`, a relation between its result, the
  events of the run, and the world that it leaves;
* **`Yields.exec`**: a complete run from no events ends so.
-/

namespace Await

namespace Prog

variable {S : Sig} {W : Type} {α β : Type} {M : Sem S W} {w : W}

/-- **Each run of the program from `w`** ends in `Φ`: the result, the events, and the world. -/
def Yields (M : Sem S W) (p : Prog S α) (w : W)
    (Φ : Except S.Err α → List (Event S) → W → Prop) : Prop :=
  ∀ h, p.Wp M.traced (fun _ _ => True) (fun x y => ∃ part, y.2 = h ++ part ∧ Φ x part y.1) (w, h)

section Rules

variable {Φ Φ' : Except S.Err α → List (Event S) → W → Prop}
  {Ψ : Except S.Err β → List (Event S) → W → Prop}

theorem yields_ret {a : α} (h : Φ (.ok a) [] w) : Yields M (.ret a) w Φ :=
  fun l => ⟨[], (List.append_nil l).symm, h⟩

theorem yields_throw {e : S.Err} (h : Φ (.error e) [] w) : Yields M (.throw e) w Φ :=
  fun l => ⟨[], (List.append_nil l).symm, h⟩

theorem yields_ofOutcome {r : Except S.Err α} (h : Φ r [] w) : Yields M (ofOutcome r) w Φ := by
  cases r with
  | ok a => exact yields_ret h
  | error e => exact yields_throw h

theorem Yields.mono {p : Prog S α} (hp : Yields M p w Φ)
    (hΦ : ∀ x part w', Φ x part w' → Φ' x part w') : Yields M p w Φ' := by
  intro h
  refine wp_post ?_ (hp h)
  rintro x y ⟨part, hy, hx⟩
  exact ⟨part, hy, hΦ _ _ _ hx⟩

theorem Yields.and {p : Prog S α} (hp : Yields M p w Φ) (hp' : Yields M p w Φ') :
    Yields M p w fun x part w' => Φ x part w' ∧ Φ' x part w' := by
  intro h
  refine wp_mono (fun _ _ _ => trivial) ?_ (wp_and (hp h) (hp' h))
  rintro x y ⟨⟨part, hy, hx⟩, part', hy', hx'⟩
  obtain rfl := List.append_cancel_left (hy.symm.trans hy')
  exact ⟨part, hy, hx, hx'⟩

theorem yields_await {op : S.Op} {k : S.Outcome op → Prog S α}
    (hk : ∀ r w', M.rel op w r w' →
      Yields M (k r) w' fun x part w'' => Φ x (⟨op, r⟩ :: part) w'') :
    Yields M (.await op k) w Φ := by
  intro h
  refine ⟨trivial, ?_⟩
  rintro r ⟨w', h'⟩ ⟨hr, rfl : h' = _⟩
  refine wp_post ?_ (hk r w' hr (h ++ [⟨op, r⟩]))
  rintro x y ⟨part, hy, hx⟩
  exact ⟨⟨op, r⟩ :: part, by rw [hy, List.append_assoc, List.singleton_append], hx⟩

theorem yields_any (p : Prog S α) (w : W) : Yields M p w fun _ _ _ => True := by
  induction p generalizing w with
  | ret a => exact yields_ret trivial
  | throw e => exact yields_throw trivial
  | await op k ih => exact yields_await fun r w' _ => ih r w'

theorem yields_perform {op : S.Op} {Φ : S.Outcome op → List (Event S) → W → Prop}
    (h : ∀ r w', M.rel op w r w' → Φ r [⟨op, r⟩] w') : Yields M (perform op) w Φ :=
  yields_await fun r w' hr => yields_ofOutcome (h r w' hr)

theorem yields_bind {p : Prog S α} {f : α → Prog S β} (hp : Yields M p w Φ)
    (hok : ∀ a part w', Φ (.ok a) part w' →
      Yields M (f a) w' fun x part' w'' => Ψ x (part ++ part') w'')
    (herror : ∀ e part w', Φ (.error e) part w' → Ψ (.error e) part w') :
    Yields M (p >>= f) w Ψ := by
  intro h
  refine wp_bind_of (hp h) ?_ ?_
  · rintro a ⟨w', h'⟩ ⟨part, rfl : h' = _, hx⟩
    refine wp_post ?_ (hok a part w' hx (h ++ part))
    rintro x y ⟨part', hy, hx'⟩
    exact ⟨part ++ part', by rw [hy, List.append_assoc], hx'⟩
  · rintro e y ⟨part, hy, hx⟩
    exact ⟨part, hy, herror e part y.1 hx⟩

theorem yields_attempt {Φ : Except S.Err (Except S.Err α) → List (Event S) → W → Prop}
    {p : Prog S α} (hp : Yields M p w fun r => Φ (.ok r)) : Yields M p.attempt w Φ :=
  fun h => (wp_attempt p _).2 (hp h)

theorem yields_attempt_bind {p : Prog S α} {f : Except S.Err α → Prog S β} (hp : Yields M p w Φ)
    (hf : ∀ r part w', Φ r part w' →
      Yields M (f r) w' fun x part' w'' => Ψ x (part ++ part') w'') :
    Yields M (p.attempt >>= f) w Ψ := by
  refine yields_bind (yields_attempt (Φ := fun x part w' => ∃ r, x = .ok r ∧ Φ r part w')
    (hp.mono fun r part w' hr => ⟨r, rfl, hr⟩)) ?_ ?_
  · rintro r part w' ⟨_, ⟨⟩, hr⟩
    exact hf r part w' hr
  · rintro e part w' ⟨_, ⟨⟩, -⟩

theorem yields_perform_bind {op : S.Op} {f : S.Ans op → Prog S β}
    (hok : ∀ a w', M.rel op w (.ok a) w' →
      Yields M (f a) w' fun x part w'' => Ψ x (⟨op, .ok a⟩ :: part) w'')
    (herror : ∀ e w', M.rel op w (.error e) w' → Ψ (.error e) [⟨op, .error e⟩] w') :
    Yields M (perform op >>= f) w Ψ := by
  refine yields_bind (yields_perform (Φ := fun r part w' => part = [⟨op, r⟩] ∧ M.rel op w r w')
    fun r w' hr => ⟨rfl, hr⟩) ?_ ?_
  · rintro a part w' ⟨rfl, hr⟩
    exact hok a w' hr
  · rintro e part w' ⟨rfl, hr⟩
    exact herror e w' hr

theorem yields_head (op : S.Op) (f : S.Ans op → Prog S β) :
    Yields M (perform op >>= f) w fun _ part _ => ∃ r rest, part = ⟨op, r⟩ :: rest :=
  yields_perform_bind (fun a w' _ => (yields_any (f a) w').mono fun _ part _ _ => ⟨_, part, rfl⟩)
    fun _ _ _ => ⟨_, _, rfl⟩

theorem yields_attempt_perform_bind {op : S.Op} {f : Except S.Err (S.Ans op) → Prog S β}
    (hf : ∀ r w', M.rel op w r w' →
      Yields M (f r) w' fun x part w'' => Ψ x (⟨op, r⟩ :: part) w'') :
    Yields M ((perform op).attempt >>= f) w Ψ := by
  refine yields_attempt_bind (yields_perform
    (Φ := fun r part w' => part = [⟨op, r⟩] ∧ M.rel op w r w') fun r w' hr => ⟨rfl, hr⟩) ?_
  rintro r part w' ⟨rfl, hr⟩
  exact hf r w' hr

theorem yields_ite {c : Prop} [Decidable c] {p q : Prog S α} (hp : c → Yields M p w Φ)
    (hq : ¬ c → Yields M q w Φ) : Yields M (if c then p else q) w Φ := by
  split
  · next hc => exact hp hc
  · next hc => exact hq hc

end Rules

/-- **Operations of one kind**, each of which keeps a relation to the world at the start. -/
theorem Always.yields {q : S.Op → Prop} {R : W → Prop} {p : Prog S α}
    (hp : Always (fun _ => q) p)
    (hR : ∀ op w r w', q op → R w → M.rel op w r w' → R w') (hw : R w) :
    Yields M p w fun _ part w' => (∀ e ∈ part, q e.1) ∧ R w' := by
  replace hp := hp []
  generalize ([] : List (Event S)) = h at hp
  induction p generalizing h w with
  | ret a => exact yields_ret ⟨nofun, hw⟩
  | throw e => exact yields_throw ⟨nofun, hw⟩
  | await op k ih =>
    refine yields_await fun r w' hr => ?_
    refine (ih r (hR op w r w' hp.1 hw hr) _ (hp.2 r _ rfl)).mono ?_
    rintro x part w'' ⟨hpart, hw''⟩
    exact ⟨List.forall_mem_cons.2 ⟨hp.1, hpart⟩, hw''⟩

/-- **A complete run** ends as the program yields. -/
theorem Yields.exec {Φ : Except S.Err α → List (Event S) → W → Prop} {p : Prog S α}
    (hp : Yields M p w Φ) {x : Except S.Err α} {w' : W} {part : List (Event S)}
    (hx : p.Exec M.traced (w, []) x (w', part)) : Φ x part w' := by
  obtain ⟨part', rfl : part = [] ++ part', hΦ⟩ := (hp []).exec hx
  exact hΦ

/-! ## The result, from the events -/

theorem Exec.hist_prefix {p : Prog S α} {h h' : List (Event S)} {x : Except S.Err α}
    (hx : p.Exec (histSem S) h x h') : h <+: h' := by
  induction hx with
  | ret a h => exact List.prefix_rfl
  | throw e h => exact List.prefix_rfl
  | await hr _ ih =>
    rw [hr] at ih
    exact (List.prefix_append _ _).trans ih

/-- **The events of a complete run determine its result.** -/
theorem Exec.hist_unique {p : Prog S α} {h h' : List (Event S)} {x x' : Except S.Err α}
    (hx : p.Exec (histSem S) h x h') (hx' : p.Exec (histSem S) h x' h') : x = x' := by
  induction hx with
  | ret a h =>
    cases hx'
    rfl
  | throw e h =>
    cases hx'
    rfl
  | @await op k h h₁ h' r x hr hk ih =>
    cases hx' with
    | @await _ _ _ h₂ _ r' _ hr' hk' =>
      cases hr
      cases hr'
      have hlast := List.prefix_of_prefix_length_le hk.hist_prefix hk'.hist_prefix (by simp)
      obtain ⟨-, heq⟩ := List.append_inj' (hlast.eq_of_length (by simp)) rfl
      cases heq
      exact ih hk'

end Prog

end Await
