import Mathlib

/-!
# Runs of labelled transition functions

A component is a partial function `next : σ → ℓ → Option σ`, where the label
chooses the operation or the thread that moves. `Run next G s₀ ls s` says that
the labels `ls` lead from `s₀` to `s` and that every step meets the condition
`G` in the state it starts from. A step may be an operation in `EStateM`, whose
exceptions keep the state they find; `after` is the state it leaves.
-/

namespace Mxrc.Lib
open List
variable {σ ℓ : Type*}

inductive Run (next : σ → ℓ → Option σ) (G : σ → ℓ → Prop) (s₀ : σ) : List ℓ → σ → Prop
  | nil : Run next G s₀ [] s₀
  | snoc {ls s l s'} : Run next G s₀ ls s → G s l → next s l = some s' →
      Run next G s₀ (ls ++ [l]) s'

variable {next : σ → ℓ → Option σ} {G : σ → ℓ → Prop} {s₀ s s' : σ} {ls ls' : List ℓ} {l : ℓ}
  {G' : σ → ℓ → Prop}

lemma Run.invariant (I : σ → Prop) (h0 : I s₀)
    (hstep : ∀ s l s', I s → G s l → next s l = some s' → I s')
    (h : Run next G s₀ ls s) : I s := by
  induction h with
  | nil => exact h0
  | snoc _ hg hn ih => exact hstep _ _ _ ih hg hn

lemma Run.invariant_history (I : List ℓ → σ → Prop) (h0 : I [] s₀)
    (hstep : ∀ ls s l s', I ls s → G s l → next s l = some s' → I (ls ++ [l]) s')
    (h : Run next G s₀ ls s) : I ls s := by
  induction h with
  | nil => exact h0
  | snoc _ hg hn ih => exact hstep _ _ _ _ ih hg hn

lemma Run.append (h : Run next G s₀ ls s) (h' : Run next G s ls' s') :
    Run next G s₀ (ls ++ ls') s' := by
  induction h' with
  | nil => simpa using h
  | snoc _ hg hn ih =>
    rw [← append_assoc]
    exact .snoc ih hg hn

lemma Run.single (hg : G s l) (hn : next s l = some s') : Run next G s [l] s' :=
  show Run next G s ([] ++ [l]) s' from .snoc .nil hg hn

lemma Run.cons (hg : G s₀ l) (hn : next s₀ l = some s) (h : Run next G s ls s') :
    Run next G s₀ (l :: ls) s' :=
  (Run.single hg hn).append h

lemma Run.snoc_inv (h : Run next G s₀ (ls ++ [l]) s') :
    ∃ s, Run next G s₀ ls s ∧ G s l ∧ next s l = some s' := by
  generalize hls : ls ++ [l] = ms at h
  cases h with
  | nil => simp at hls
  | snoc h hg hn =>
    obtain ⟨rfl, hl⟩ := append_inj' hls rfl
    cases hl
    exact ⟨_, h, hg, hn⟩

lemma Run.split (h : Run next G s₀ (ls ++ ls') s') :
    ∃ s, Run next G s₀ ls s ∧ Run next G s ls' s' := by
  induction ls' using List.reverseRecOn generalizing s' with
  | nil => exact ⟨s', by simpa using h, .nil⟩
  | append_singleton ls' l ih =>
    rw [← append_assoc] at h
    obtain ⟨mid, hmid, hg, hn⟩ := h.snoc_inv
    obtain ⟨s, hs, hs'⟩ := ih hmid
    exact ⟨s, hs, hs'.snoc hg hn⟩

lemma Run.weaken (hG : ∀ s l, G s l → G' s l) (h : Run next G s₀ ls s) : Run next G' s₀ ls s := by
  induction h with
  | nil => exact .nil
  | snoc _ hg hn ih => exact .snoc ih (hG _ _ hg) hn

lemma Run.deterministic (h : Run next G s₀ ls s) (h' : Run next G' s₀ ls s') : s = s' := by
  induction h generalizing s' with
  | nil =>
    generalize hls : ([] : List ℓ) = ms at h'
    cases h' with
    | nil => rfl
    | snoc => simp at hls
  | snoc _ _ hn ih =>
    obtain ⟨mid, hmid, -, hn'⟩ := h'.snoc_inv
    cases ih hmid
    exact Option.some.inj (hn.symm.trans hn')

lemma Run.of_map {ℓ' : Type*} {next' : σ → ℓ' → Option σ} (f : ℓ' → ℓ)
    (hnext : ∀ s l, next s (f l) = next' s l) {ms : List ℓ'}
    (h : Run next (fun _ _ => True) s₀ (ms.map f) s) : Run next' (fun _ _ => True) s₀ ms s := by
  induction ms using List.reverseRecOn generalizing s with
  | nil =>
    cases h.deterministic (.nil : Run next (fun _ _ => True) s₀ [] s₀)
    exact .nil
  | append_singleton ms l ih =>
    rw [map_append, map_singleton] at h
    obtain ⟨mid, hmid, -, hn⟩ := h.snoc_inv
    rw [hnext] at hn
    exact .snoc (ih hmid) trivial hn

def Throughout (next : σ → ℓ → Option σ) (I : σ → Prop) (s₀ : σ) (ls : List ℓ) : Prop :=
  ∀ ls₁ s, ls₁ <+: ls → Run next (fun _ _ => True) s₀ ls₁ s → I s

variable {I : σ → Prop}

/-- If `B` is kept as long as `I` holds, and `G` is what a step needs to keep `I`, then `I` holds
throughout exactly the runs whose steps meet `G`. -/
lemma Run.throughout_iff_of_base {B : σ → Prop} (hB : B s₀) (h0 : I s₀)
    (hstep : ∀ s l s', B s → I s → next s l = some s' → B s' ∧ (I s' ↔ G s l))
    (h : Run next (fun _ _ => True) s₀ ls s) : Throughout next I s₀ ls ↔ Run next G s₀ ls s := by
  constructor
  · intro hI
    suffices hboth : Run next G s₀ ls s ∧ B s from hboth.1
    induction h with
    | nil => exact ⟨.nil, hB⟩
    | snoc h _ hn ih =>
      have hmid := hI _ _ (prefix_append _ _) h
      have hlast := hI _ _ prefix_rfl (h.snoc trivial hn)
      obtain ⟨hrun, hb⟩ := ih fun ls₁ s hp => hI ls₁ s (hp.trans (prefix_append _ _))
      obtain ⟨hb', hkept⟩ := hstep _ _ _ hb hmid hn
      exact ⟨.snoc hrun (hkept.mp hlast) hn, hb'⟩
  · intro hG ls₁ s₁ hls h₁
    obtain ⟨ls₂, rfl⟩ := hls
    obtain ⟨mid, hmid, -⟩ := hG.split
    cases h₁.deterministic hmid
    have hboth := hmid.invariant (fun s => B s ∧ I s) ⟨hB, h0⟩ fun s l s' hs hg hn => by
      obtain ⟨hb', hkept⟩ := hstep s l s' hs.1 hs.2 hn
      exact ⟨hb', hkept.mpr hg⟩
    exact hboth.2

lemma Run.throughout_iff (h0 : I s₀)
    (hstep : ∀ s l s', I s → next s l = some s' → (I s' ↔ G s l))
    (h : Run next (fun _ _ => True) s₀ ls s) : Throughout next I s₀ ls ↔ Run next G s₀ ls s :=
  h.throughout_iff_of_base (B := fun _ => True) trivial h0
    fun s l s' _ hI hn => ⟨trivial, hstep s l s' hI hn⟩

def EveryStep (next : σ → ℓ → Option σ) (P : σ → ℓ → Prop) (s₀ : σ) (ls : List ℓ) : Prop :=
  ∀ ls₁ l ls₂ s s', ls = ls₁ ++ l :: ls₂ → Run next (fun _ _ => True) s₀ ls₁ s →
    next s l = some s' → P s l

variable {P : σ → ℓ → Prop}

lemma EveryStep.left (h : EveryStep next P s₀ (ls ++ ls')) : EveryStep next P s₀ ls := by
  rintro ls₁ l ls₂ s s' rfl
  exact h ls₁ l (ls₂ ++ ls') s s' (by simp)

lemma Run.everyStep_iff (h : Run next (fun _ _ => True) s₀ ls s) :
    EveryStep next P s₀ ls ↔ Run next P s₀ ls s := by
  constructor
  · intro hP
    induction h with
    | nil => exact .nil
    | snoc h _ hn ih => exact .snoc (ih hP.left) (hP _ _ [] _ _ rfl h hn) hn
  · intro hP ls₁ l ls₂ s₁ s' hls h₁ _
    rw [hls, ← singleton_append, ← append_assoc] at hP
    obtain ⟨_, hmid, -⟩ := hP.split
    obtain ⟨mid, hmid, hl, -⟩ := hmid.snoc_inv
    cases h₁.deterministic hmid
    exact hl

lemma throughout_iff_everyStep {B : σ → Prop} (hB : B s₀) (h0 : I s₀)
    (hstep : ∀ s l s', B s → I s → next s l = some s' → B s' ∧ (I s' ↔ G s l)) :
    Throughout next I s₀ ls ↔ EveryStep next G s₀ ls := by
  constructor
  · rintro hI ls₁ l ls₂ s s' rfl h₁ hn
    have hbef : Throughout next I s₀ ls₁ := fun ls₀ s hp =>
      hI ls₀ s (hp.trans (prefix_append _ _))
    have hb := ((h₁.throughout_iff_of_base hB h0 hstep).mp hbef).invariant
      (fun s => B s ∧ I s) ⟨hB, h0⟩ fun s l s' hs hg hn =>
        ⟨(hstep s l s' hs.1 hs.2 hn).1, (hstep s l s' hs.1 hs.2 hn).2.mpr hg⟩
    refine (hstep s l s' hb.1 hb.2 hn).2.mp (hI (ls₁ ++ [l]) s' ?_ (h₁.snoc trivial hn))
    exact ⟨ls₂, by simp⟩
  · rintro hG ls₁ s ⟨ls₂, rfl⟩ h₁
    exact (h₁.throughout_iff_of_base hB h0 hstep).mpr (h₁.everyStep_iff.mp hG.left) ls₁ s
      prefix_rfl h₁

/-- If `P` and `G` agree on the steps from states with `I`, and `P` keeps `I`, then they agree on
whole runs. -/
lemma everyStep_congr {G : σ → ℓ → Prop} (h0 : I s₀)
    (hstep : ∀ s l s', I s → next s l = some s' → (P s l ↔ G s l) ∧ (P s l → I s')) :
    EveryStep next P s₀ ls ↔ EveryStep next G s₀ ls := by
  constructor
  · rintro hP ls₁ l ls₂ s s' rfl h₁ hn
    have hI : I s := (h₁.everyStep_iff.mp hP.left).invariant I h0 fun s l s' hs hp hn =>
      (hstep s l s' hs hn).2 hp
    exact (hstep s l s' hI hn).1.mp (hP ls₁ l ls₂ s s' rfl h₁ hn)
  · rintro hG ls₁ l ls₂ s s' rfl h₁ hn
    have hI : I s := (h₁.everyStep_iff.mp hG.left).invariant I h0 fun s l s' hs hg hn =>
      (hstep s l s' hs hn).2 ((hstep s l s' hs hn).1.mpr hg)
    exact (hstep s l s' hI hn).1.mpr (hG ls₁ l ls₂ s s' rfl h₁ hn)

/-- If `B` is kept and a step extends `P` exactly if it meets `G`, then `P` holds of exactly the
runs whose steps meet `G`. -/
lemma Run.iff_of_step {B P : σ → Prop} (hB : B s₀) (h0 : P s₀)
    (hstep : ∀ s l s', B s → next s l = some s' → B s' ∧ (P s' ↔ P s ∧ G s l))
    (h : Run next (fun _ _ => True) s₀ ls s) : P s ↔ Run next G s₀ ls s := by
  suffices hboth : B s ∧ (P s ↔ Run next G s₀ ls s) from hboth.2
  induction h with
  | nil => exact ⟨hB, iff_of_true h0 .nil⟩
  | snoc h _ hn ih =>
    obtain ⟨hb, hP⟩ := ih
    obtain ⟨hb', hkept⟩ := hstep _ _ _ hb hn
    refine ⟨hb', hkept.trans ⟨fun hs => .snoc (hP.mp hs.1) hs.2 hn, fun hG => ?_⟩⟩
    obtain ⟨mid, hmid, hg, -⟩ := hG.snoc_inv
    cases h.deterministic hmid
    exact ⟨hP.mpr hmid, hg⟩

def EveryEntry {α : Type*} (P : List α → α → Prop) (log : List α) : Prop :=
  ∀ before a after, log = before ++ a :: after → P before a

lemma everyEntry_nil {α : Type*} (P : List α → α → Prop) : EveryEntry P [] := by
  intro before a after hlog
  simp at hlog

lemma everyEntry_append_singleton {α : Type*} {P : List α → α → Prop} {log : List α} {a : α} :
    EveryEntry P (log ++ [a]) ↔ EveryEntry P log ∧ P log a := by
  constructor
  · intro h
    refine ⟨fun before b after hlog => ?_, h log a [] rfl⟩
    exact h before b (after ++ [a]) (by rw [hlog]; simp)
  · rintro ⟨h, ha⟩ before b after hlog
    rcases eq_nil_or_concat after with rfl | ⟨after, c, rfl⟩
    · obtain ⟨rfl, hb⟩ := append_inj' hlog rfl
      cases hb
      exact ha
    · rw [List.concat_eq_append, ← cons_append, ← append_assoc] at hlog
      obtain ⟨rfl, -⟩ := append_inj' hlog rfl
      exact h before b after rfl

def exec (next : σ → ℓ → Option σ) (ok : σ → ℓ → Bool) : σ → List ℓ → Option σ
  | s, [] => some s
  | s, l :: ls => if ok s l then (next s l).bind (exec next ok · ls) else none

variable {ok : σ → ℓ → Bool}

lemma Run.of_exec (hok : ∀ s l, ok s l = true → G s l) (h : exec next ok s₀ ls = some s) :
    Run next G s₀ ls s := by
  induction ls generalizing s₀ with
  | nil =>
    cases h
    exact .nil
  | cons l ls ih =>
    rw [exec] at h
    split_ifs at h with hl
    obtain ⟨mid, hn, hrest⟩ := Option.bind_eq_some_iff.mp h
    exact .cons (hok _ _ hl) hn (ih hrest)

lemma exists_run_of_exec {β : Type*} {f : σ → β} {b : β} (hok : ∀ s l, ok s l = true → G s l)
    (h : (exec next ok s₀ ls).map f = some b) : ∃ s, Run next G s₀ ls s ∧ f s = b := by
  obtain ⟨s, hs, hb⟩ := Option.map_eq_some_iff.mp h
  exact ⟨s, .of_exec hok hs, hb⟩

def after {ε σ α : Type} (op : EStateM ε σ α) (s : σ) : σ :=
  match op.run s with
  | .ok _ s' => s'
  | .error _ s' => s'

lemma after_of_ok {ε σ α : Type} {op : EStateM ε σ α} {s s' : σ} {a : α}
    (h : op.run s = .ok a s') : after op s = s' := by
  rw [after, h]

lemma after_of_error {ε σ α : Type} {op : EStateM ε σ α} {s s' : σ} {e : ε}
    (h : op.run s = .error e s') : after op s = s' := by
  rw [after, h]

lemma after_congr {ε σ α : Type} {op op' : EStateM ε σ α} {s t : σ}
    (h : op.run s = op'.run t) : after op s = after op' t := by
  rw [after, h, after]

end Mxrc.Lib
