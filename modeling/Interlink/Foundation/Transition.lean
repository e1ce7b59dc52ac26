import Mathlib.Data.List.Basic

/-!
# Executable transition systems

A system is a partial step function: `step s e = none` says that the event `e`
cannot happen in the state `s`, and `step s e = some (s', out)` says that it
leads to `s'` and that `out` is observed while it happens.  Nondeterminism (the
schedule, the answers of the environment) is in the events, so a run is a list
of events and can be evaluated.
-/

namespace Interlink.Foundation

universe u v w

abbrev Step (σ : Type u) (ε : Type v) (ω : Type w) : Type (max u v w) :=
  σ → ε → Option (σ × List ω)

namespace Step

variable {σ : Type u} {ε : Type v} {ω : Type w} (step : Step σ ε ω)

/-! ## Runs -/

def exec : σ → List ε → Option (σ × List ω)
  | s, [] => some (s, [])
  | s, e :: es =>
      match step s e with
      | none => none
      | some (next, out) => (exec next es).map fun last => (last.1, out ++ last.2)

/-- Every event of the run meets `C` in the state in which it is taken. -/
def Always (C : σ → ε → Prop) : σ → List ε → Prop
  | _, [] => True
  | s, e :: es =>
      C s e ∧
        match step s e with
        | none => True
        | some (next, _) => Always C next es

instance decidableAlways (C : σ → ε → Prop) [∀ s e, Decidable (C s e)] :
    ∀ s es, Decidable (Step.Always step C s es)
  | _, [] => isTrue trivial
  | s, e :: es =>
      match h : step s e with
      | none => decidable_of_iff (C s e) (by simp [Always, h])
      | some (next, _) =>
          have := decidableAlways C next es
          decidable_of_iff (C s e ∧ Step.Always step C next es) (by simp [Always, h])

variable {step}

@[simp]
theorem exec_nil {s s' : σ} {outs : List ω} :
    exec step s [] = some (s', outs) ↔ s = s' ∧ outs = [] := by
  constructor
  · intro h
    cases h
    exact ⟨rfl, rfl⟩
  · rintro ⟨rfl, rfl⟩
    rfl

theorem exec_cons_eq_bind {s : σ} {e : ε} {es : List ε} :
    exec step s (e :: es) = (step s e).bind fun first =>
      (exec step first.1 es).map fun last => (last.1, first.2 ++ last.2) := by
  change (match step s e with
    | none => none
    | some (next, out) =>
        (exec step next es).map fun last : σ × List ω => (last.1, out ++ last.2)) = _
  cases step s e with
  | none => rfl
  | some first => rfl

theorem exec_cons {s s' : σ} {e : ε} {es : List ε} {outs : List ω} :
    exec step s (e :: es) = some (s', outs) ↔
      ∃ next out rest, step s e = some (next, out) ∧
        exec step next es = some (s', rest) ∧ outs = out ++ rest := by
  constructor
  · intro h
    obtain ⟨⟨next, out⟩, hstep, hrest⟩ := Option.bind_eq_some_iff.mp (exec_cons_eq_bind ▸ h)
    obtain ⟨⟨last, rest⟩, hrun, heq⟩ := Option.map_eq_some_iff.mp hrest
    cases heq
    exact ⟨next, out, rest, hstep, hrun, rfl⟩
  · rintro ⟨next, out, rest, hstep, hrest, rfl⟩
    rw [exec_cons_eq_bind, hstep, Option.bind_some, hrest]
    rfl

theorem exec_single {s s' : σ} {e : ε} {out : List ω} (h : step s e = some (s', out)) :
    exec step s [e] = some (s', out) :=
  exec_cons.mpr ⟨s', out, [], h, rfl, by simp⟩

theorem exec_append {s m s' : σ} {es fs : List ε} {outs rest : List ω}
    (hes : exec step s es = some (m, outs)) (hfs : exec step m fs = some (s', rest)) :
    exec step s (es ++ fs) = some (s', outs ++ rest) := by
  induction es generalizing s outs with
  | nil =>
      obtain ⟨rfl, rfl⟩ := exec_nil.mp hes
      simpa using hfs
  | cons e es ih =>
      obtain ⟨next, out, tail, hstep, htail, rfl⟩ := exec_cons.mp hes
      exact exec_cons.mpr ⟨next, out, tail ++ rest, hstep, ih htail, by simp⟩

/-! ## Invariants of runs -/

section Invariant

variable {I : List ω → σ → Prop} {C : σ → ε → Prop}

theorem invariant_append
    (hstep : ∀ {trace s e s' out}, I trace s → C s e → step s e = some (s', out) →
      I (trace ++ out) s')
    {s s' : σ} {es : List ε} {trace outs : List ω} (hI : I trace s)
    (hC : Always step C s es) (hexec : exec step s es = some (s', outs)) :
    I (trace ++ outs) s' := by
  induction es generalizing s trace outs with
  | nil =>
      obtain ⟨rfl, rfl⟩ := exec_nil.mp hexec
      simpa using hI
  | cons e es ih =>
      obtain ⟨next, out, rest, hnext, hrest, rfl⟩ := exec_cons.mp hexec
      simp only [Always, hnext] at hC
      rw [← List.append_assoc]
      exact ih (hstep hI hC.1 hnext) hC.2 hrest

theorem always_of_forall {P : ε → Prop} {es : List ε} (h : ∀ e ∈ es, P e) (s : σ) :
    Always step (fun _ e => P e) s es := by
  induction es generalizing s with
  | nil => trivial
  | cons e es ih =>
      refine ⟨h e (by simp), ?_⟩
      cases step s e with
      | none => trivial
      | some pair => exact ih (fun e he => h e (by simp [he])) pair.1

/--
The invariant rule for runs whose steps all meet `C`.  The invariant may speak
about everything observed so far.
-/
theorem invariant_of_always
    (hstep : ∀ {trace s e s' out}, I trace s → C s e → step s e = some (s', out) →
      I (trace ++ out) s')
    {s s' : σ} {es : List ε} {outs : List ω} (hI : I [] s)
    (hC : Always step C s es) (hexec : exec step s es = some (s', outs)) :
    I outs s' :=
  invariant_append hstep hI hC hexec

theorem invariant
    (hstep : ∀ {trace s e s' out}, I trace s → step s e = some (s', out) →
      I (trace ++ out) s')
    {s s' : σ} {es : List ε} {outs : List ω} (hI : I [] s)
    (hexec : exec step s es = some (s', outs)) : I outs s' :=
  invariant_of_always (fun h _ => hstep h) hI
    (always_of_forall (fun _ _ => trivial) s) hexec

theorem invariant_events_append {J : List ε → List ω → σ → Prop}
    (hstep : ∀ {done trace s e s' out}, J done trace s → step s e = some (s', out) →
      J (done ++ [e]) (trace ++ out) s')
    {s s' : σ} {done es : List ε} {trace outs : List ω} (hJ : J done trace s)
    (hexec : exec step s es = some (s', outs)) : J (done ++ es) (trace ++ outs) s' := by
  induction es generalizing s done trace outs with
  | nil =>
      obtain ⟨rfl, rfl⟩ := exec_nil.mp hexec
      simpa using hJ
  | cons e es ih =>
      obtain ⟨next, out, rest, hnext, hrest, rfl⟩ := exec_cons.mp hexec
      rw [List.append_cons, ← List.append_assoc]
      exact ih (hstep hJ hnext) hrest

theorem invariant_events {J : List ε → List ω → σ → Prop}
    (hstep : ∀ {done trace s e s' out}, J done trace s → step s e = some (s', out) →
      J (done ++ [e]) (trace ++ out) s')
    {s s' : σ} {es : List ε} {outs : List ω} (hJ : J [] [] s)
    (hexec : exec step s es = some (s', outs)) : J es outs s' :=
  invariant_events_append hstep hJ hexec

theorem countP_exec {p : ε → Bool} {q : ω → Bool}
    (hstep : ∀ {s e s' out}, step s e = some (s', out) → out.countP q = (p e).toNat)
    {s s' : σ} {es : List ε} {outs : List ω} (hexec : exec step s es = some (s', outs)) :
    outs.countP q = es.countP p := by
  induction es generalizing s outs with
  | nil =>
      obtain ⟨-, rfl⟩ := exec_nil.mp hexec
      rfl
  | cons e es ih =>
      obtain ⟨next, out, rest, hnext, hrest, rfl⟩ := exec_cons.mp hexec
      rw [List.countP_append, hstep hnext, ih hrest, List.countP_cons]
      cases p e <;> simp [Nat.add_comm]

/-- A measure that every step lowers bounds the length of a run. -/
theorem length_add_le {J : σ → Prop} {μ : σ → Nat}
    (hstep : ∀ {s e s' out}, J s → step s e = some (s', out) → J s' ∧ μ s' < μ s)
    {s s' : σ} {es : List ε} {outs : List ω} (hJ : J s)
    (hexec : exec step s es = some (s', outs)) : es.length + μ s' ≤ μ s := by
  induction es generalizing s outs with
  | nil =>
      obtain ⟨rfl, -⟩ := exec_nil.mp hexec
      simp
  | cons e es ih =>
      obtain ⟨next, out, rest, hnext, hrest, -⟩ := exec_cons.mp hexec
      obtain ⟨hJ', hlower⟩ := hstep hJ hnext
      have hes := ih hJ' hrest
      simp only [List.length_cons]
      omega

theorem Always.imp {D : σ → ε → Prop} (himp : ∀ {s e}, C s e → D s e) {s : σ} {es : List ε}
    (hC : Always step C s es) : Always step D s es := by
  induction es generalizing s with
  | nil => trivial
  | cons e es ih =>
      refine ⟨himp hC.1, ?_⟩
      have htail := hC.2
      cases hstep : step s e with
      | none => trivial
      | some pair =>
          rw [hstep] at htail
          exact ih htail

theorem Always.and {D : σ → ε → Prop} {s : σ} {es : List ε}
    (hC : Always step C s es) (hD : Always step D s es) :
    Always step (fun s e => C s e ∧ D s e) s es := by
  induction es generalizing s with
  | nil => trivial
  | cons e es ih =>
      refine ⟨⟨hC.1, hD.1⟩, ?_⟩
      have hC := hC.2
      have hD := hD.2
      cases h : step s e with
      | none => trivial
      | some pair =>
          simp only [h] at hC hD
          exact ih hC hD

theorem Always.of_invariant {J : σ → Prop} {D : σ → ε → Prop}
    (hstep : ∀ {s e s' out}, J s → C s e → step s e = some (s', out) → J s')
    (himp : ∀ {s e}, J s → D s e) {s : σ} {es : List ε} (hJ : J s)
    (hC : Always step C s es) : Always step D s es := by
  induction es generalizing s with
  | nil => trivial
  | cons e es ih =>
      refine ⟨himp hJ, ?_⟩
      have hrest := hC.2
      cases h : step s e with
      | none => trivial
      | some pair =>
          simp only [h] at hrest
          exact ih (hstep hJ hC.1 h) hrest

/-- A run that leaves `C` has a first part after which a step is taken against `C`. -/
theorem exists_of_not_always {s s' : σ} {es : List ε} {outs : List ω}
    (hexec : exec step s es = some (s', outs)) (hC : ¬ Always step C s es) :
    ∃ es₁ e es₂ m₁ outs₁ m₂ out outs₂,
      es = es₁ ++ e :: es₂ ∧ exec step s es₁ = some (m₁, outs₁) ∧
      step m₁ e = some (m₂, out) ∧ ¬ C m₁ e ∧
      exec step m₂ es₂ = some (s', outs₂) ∧ outs = outs₁ ++ (out ++ outs₂) := by
  induction es generalizing s outs with
  | nil => exact absurd trivial hC
  | cons e es ih =>
      obtain ⟨next, out, rest, hnext, hrest, rfl⟩ := exec_cons.mp hexec
      by_cases hfirst : C s e
      · have htail : ¬ Always step C next es := by
          intro h
          exact hC ⟨hfirst, by simpa only [hnext] using h⟩
        obtain ⟨es₁, e', es₂, m₁, outs₁, m₂, out', outs₂, rfl, h₁, h₂, h₃, h₄, rfl⟩ :=
          ih hrest htail
        exact ⟨e :: es₁, e', es₂, m₁, out ++ outs₁, m₂, out', outs₂, rfl,
          exec_cons.mpr ⟨next, out, outs₁, hnext, h₁, rfl⟩, h₂, h₃, h₄, by simp⟩
      · exact ⟨[], e, es, s, [], next, out, rest, rfl, by simp, hnext, hfirst, hrest,
          by simp⟩

end Invariant

/-! ## Reachability -/

/-- Some run whose steps all meet `C` leads from the first state to the second. -/
def Reaches (step : Step σ ε ω) (C : σ → ε → Prop) (s s' : σ) : Prop :=
  ∃ es outs, exec step s es = some (s', outs) ∧ Always step C s es

def Leads (step : Step σ ε ω) (C : σ → ε → Prop) (P Q : σ → Prop) : Prop :=
  ∀ s, P s → ∃ s', Reaches step C s s' ∧ Q s'

theorem Always.append {s m : σ} {es fs : List ε} {outs : List ω}
    (hexec : exec step s es = some (m, outs)) (hes : Always step C s es)
    (hfs : Always step C m fs) : Always step C s (es ++ fs) := by
  induction es generalizing s outs with
  | nil =>
      obtain ⟨rfl, -⟩ := exec_nil.mp hexec
      exact hfs
  | cons e es ih =>
      obtain ⟨next, out, rest, hnext, hrest, -⟩ := exec_cons.mp hexec
      simp only [Always, hnext] at hes
      simp only [List.cons_append, Always, hnext]
      exact ⟨hes.1, ih hrest hes.2⟩

theorem Always.of_append {s m : σ} {es fs : List ε} {outs : List ω}
    (hexec : exec step s es = some (m, outs)) (h : Always step C s (es ++ fs)) :
    Always step C s es ∧ Always step C m fs := by
  induction es generalizing s outs with
  | nil =>
      obtain ⟨rfl, -⟩ := exec_nil.mp hexec
      exact ⟨trivial, h⟩
  | cons e es ih =>
      obtain ⟨next, out, rest, hnext, hrest, -⟩ := exec_cons.mp hexec
      simp only [List.cons_append, Always, hnext] at h ⊢
      obtain ⟨hes, hfs⟩ := ih hrest h.2
      exact ⟨⟨h.1, hes⟩, hfs⟩

theorem Reaches.refl (s : σ) : Reaches step C s s :=
  ⟨[], [], rfl, trivial⟩

theorem Reaches.single {s s' : σ} {e : ε} {out : List ω} (hstep : step s e = some (s', out))
    (hC : C s e) : Reaches step C s s' := by
  refine ⟨[e], out, exec_single hstep, ?_⟩
  simp [Always, hstep, hC]

theorem Reaches.trans {s m s' : σ} (h : Reaches step C s m) (h' : Reaches step C m s') :
    Reaches step C s s' := by
  obtain ⟨es, outs, hexec, halways⟩ := h
  obtain ⟨fs, rest, hexec', halways'⟩ := h'
  exact ⟨es ++ fs, outs ++ rest, exec_append hexec hexec', halways.append hexec halways'⟩

theorem Leads.trans {P Q R : σ → Prop} (h : Leads step C P Q) (h' : Leads step C Q R) :
    Leads step C P R := by
  intro s hs
  obtain ⟨m, hm, hQ⟩ := h s hs
  obtain ⟨s', hs', hR⟩ := h' m hQ
  exact ⟨s', hm.trans hs', hR⟩

theorem Leads.exists {ι : Sort*} {P : ι → σ → Prop} {Q : σ → Prop}
    (h : ∀ i, Leads step C (P i) Q) : Leads step C (fun s => ∃ i, P i s) Q :=
  fun s ⟨i, hs⟩ => h i s hs

/-! ## Simulation -/

section Simulation

variable {τ ε' ω' : Type*} {step' : Step τ ε' ω'} {R : List ω → σ → List ω' → τ → Prop}
  {C : σ → ε → Prop}

theorem simulation_append
    (hstep : ∀ {trace s trace' t e s' out}, R trace s trace' t → C s e →
      step s e = some (s', out) →
      ∃ es t' outs, exec step' t es = some (t', outs) ∧
        R (trace ++ out) s' (trace' ++ outs) t')
    {s s' : σ} {es : List ε} {trace outs : List ω} {trace' : List ω'} {t : τ}
    (hR : R trace s trace' t) (hC : Always step C s es)
    (hexec : exec step s es = some (s', outs)) :
    ∃ fs t' outs', exec step' t fs = some (t', outs') ∧
      R (trace ++ outs) s' (trace' ++ outs') t' := by
  induction es generalizing s trace outs trace' t with
  | nil =>
      obtain ⟨rfl, rfl⟩ := exec_nil.mp hexec
      exact ⟨[], t, [], rfl, by simpa using hR⟩
  | cons e es ih =>
      obtain ⟨next, out, rest, hnext, hrest, rfl⟩ := exec_cons.mp hexec
      simp only [Always, hnext] at hC
      obtain ⟨fs, t₁, outs₁, hfs, hR₁⟩ := hstep hR hC.1 hnext
      obtain ⟨gs, t₂, outs₂, hgs, hR₂⟩ := ih hR₁ hC.2 hrest
      exact ⟨fs ++ gs, t₂, outs₁ ++ outs₂, exec_append hfs hgs,
        by simpa only [List.append_assoc] using hR₂⟩

/--
Forward simulation: if every step of one system that meets `C` is answered by a run of
another that keeps the relation, so is every run whose steps all meet `C`.
-/
theorem simulation_of_always
    (hstep : ∀ {trace s trace' t e s' out}, R trace s trace' t → C s e →
      step s e = some (s', out) →
      ∃ es t' outs, exec step' t es = some (t', outs) ∧
        R (trace ++ out) s' (trace' ++ outs) t')
    {s s' : σ} {es : List ε} {outs : List ω} {t : τ} (hR : R [] s [] t)
    (hC : Always step C s es) (hexec : exec step s es = some (s', outs)) :
    ∃ fs t' outs', exec step' t fs = some (t', outs') ∧ R outs s' outs' t' :=
  simulation_append hstep hR hC hexec

end Simulation

end Step

end Interlink.Foundation
