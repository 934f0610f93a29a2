import NeoTrader.Await.Logic

/-!
# Properties of programs that are built up from their parts

* `Prog.Keeps`: a program keeps an invariant of the world, at each await and at its end;
* **`Always.keeps`**: an invariant that every operation keeps, where an operation may rely on what
  earlier answers of the same program still say about the world;
* `Modular`: the properties that pass from the parts of a program to the program, so that a program
  is traversed once for all of them; `modular_always`, `modular_keeps`.
-/

namespace Await

namespace Prog

variable {S : Sig} {W : Type} {α β : Type} {M : Sem S W} {I : W → Prop}

/-- **The program keeps an invariant** of the world, at each await and at its end. -/
def Keeps (M : Sem S W) (I : W → Prop) (p : Prog S α) : Prop :=
  ∀ w, I w → p.Wp M (fun w _ => I w) (fun _ => I) w

theorem wp_now {p : Prog S α} {w : W} (h : p.Wp M (fun w _ => I w) (fun _ => I) w) : I w := by
  cases p with
  | ret a => exact h
  | throw e => exact h
  | await op k => exact h.1

theorem keeps_ret (a : α) : Keeps M I (.ret a : Prog S α) := fun _ hw => hw

theorem keeps_throw (e : S.Err) : Keeps M I (.throw e : Prog S α) := fun _ hw => hw

theorem Keeps.bind {p : Prog S α} {f : α → Prog S β} (hp : Keeps M I p) (hf : ∀ a, Keeps M I (f a)) :
    Keeps M I (p >>= f) :=
  fun w hw => wp_bind_of (hp w hw) (fun a w' hw' => hf a w' hw') fun _ _ h => h

theorem Keeps.step {op : S.Op} (h : Keeps M I (perform op)) {w w' : W} {r : S.Outcome op}
    (hw : I w) (hr : M.rel op w r w') : I w' := by
  have hr := (h w hw).2 r w' hr
  rw [wp_ofOutcome] at hr
  exact hr

theorem Keeps.attempt {p : Prog S α} (hp : Keeps M I p) : Keeps M I p.attempt :=
  fun w hw => (wp_attempt p w).2 (hp w hw)

/-- **An invariant of the world that every operation keeps.** `K e w` is what an answer of the past
still says about the world. -/
theorem Always.keeps {pre : List (Event S) → S.Op → Prop} {K : Event S → W → Prop} {p : Prog S α}
    (hp : Always pre p)
    (hstep : ∀ w w' h op (r : S.Outcome op), I w → (∀ e ∈ h, K e w) → pre h op → M.rel op w r w' →
      I w' ∧ K ⟨op, r⟩ w' ∧ ∀ e, K e w → K e w') : Keeps M I p := by
  suffices ∀ h w, p.Wp (histSem S) pre (fun _ _ => True) h → I w → (∀ e ∈ h, K e w) →
      p.Wp M (fun w _ => I w) (fun _ => I) w from fun w hw => this [] w (hp []) hw (by simp)
  clear hp
  induction p with
  | ret a => exact fun _ _ _ hw _ => hw
  | throw e => exact fun _ _ _ hw _ => hw
  | await op k ih =>
    intro h w hp hw hK
    refine ⟨hw, fun r w' hr => ?_⟩
    obtain ⟨hw', hnew, hold⟩ := hstep w w' h op r hw hK hp.1 hr
    refine ih r _ w' (hp.2 r _ rfl) hw' fun e he => ?_
    rcases List.mem_append.1 he with he | he
    · exact hold e (hK e he)
    · rw [List.mem_singleton.1 he]
      exact hnew

theorem Keeps.embed {T : Sig} {N : Sem T W} (e : Emb S T)
    (hrel : ∀ op w r w', N.rel (e.op op) w r w' → M.rel op w (e.back op r) w') {p : Prog S α}
    (hp : Keeps M I p) : Keeps N I (p.embed e) := by
  intro w hw
  replace hp := hp w hw
  clear hw
  induction p generalizing w with
  | ret a => exact hp
  | throw x => exact hp
  | await op k ih => exact ⟨hp.1, fun r w' hr => ih _ w' (hp.2 _ w' (hrel op w r w' hr))⟩

theorem Keeps.forEach {f : β → Prog S Unit} {l : List β} (hf : ∀ b, Keeps M I (f b)) :
    Keeps M I (forEach l f) := by
  induction l with
  | nil => exact keeps_ret ()
  | cons b l ih => exact (hf b).bind fun _ => ih

/-- **A property that passes from the parts of a program to the program.** -/
structure Modular (Φ : (α : Type) → Prog S α → Prop) : Prop where
  ret : ∀ {α : Type} (a : α), Φ α (.ret a)
  throw : ∀ {α : Type} (e : S.Err), Φ α (.throw e)
  bind : ∀ {α β : Type} {p : Prog S α} {f : α → Prog S β}, Φ α p → (∀ a, Φ β (f a)) →
    Φ β (p >>= f)
  attempt : ∀ {α : Type} {p : Prog S α}, Φ α p → Φ _ p.attempt

theorem modular_always (pre : List (Event S) → S.Op → Prop) :
    Modular (S := S) fun _ => Always pre :=
  ⟨always_ret, always_throw, always_bind, always_attempt⟩

theorem modular_keeps (M : Sem S W) (I : W → Prop) : Modular (S := S) fun _ => Keeps M I :=
  ⟨keeps_ret, keeps_throw, Keeps.bind, Keeps.attempt⟩

namespace Modular

variable {Φ : (α : Type) → Prog S α → Prop}

theorem ofOutcome (hΦ : Modular Φ) (r : Except S.Err α) : Φ α (ofOutcome r) := by
  cases r
  · exact hΦ.throw _
  · exact hΦ.ret _

theorem ite {c : Prop} [Decidable c] {p q : Prog S α} (hp : c → Φ α p) (hq : ¬ c → Φ α q) :
    Φ α (if c then p else q) := by
  split
  · next hc => exact hp hc
  · next hc => exact hq hc

end Modular

end Prog

end Await
