import Mxrc.Action.Clients

/-!
# The timeout threads

The `std::thread` of a timeout monitor lives in the registry entry of its action
id. A second submission assigns a new thread over the old one, and
`clearCompletedActions` may destroy an entry that has just got a thread.
-/

namespace Mxrc.Action.Clients
open Mxrc.Lib Option

def Watched (s : Clients) (id : String) : Prop :=
  ∃ e, s.executor.runningActions.lookup id = some e ∧ e.timeoutThread.isSome = true

def NeverTerminates (G : Clients → ℕ × Label → Prop) (ls : List (ℕ × Label)) : Prop :=
  ∀ s, Run next G init ls s → s.executor.terminated = false

/-- An id is submitted with a timeout only when its entry has no thread and no other client is
submitting or clearing it. -/
def OneMonitor (s : Clients) : ℕ × Label → Prop
  | (_, .executeAsync id _ timeout) => timeout ≠ 0 → ¬ Watched s id ∧
      ∀ c, (∀ x, Submitting s c x → x.actionId = id → x.timeout = 0) ∧ ¬ Clearing s c id
  | (_, .clearCollect) => ∀ id ∈ s.executor.completed.map (·.1), ∀ c x, Submitting s c x →
      x.actionId = id → x.timeout = 0
  | _ => True

structure Handles (s : Clients) : Prop where
  alive : s.executor.terminated = false
  bound : ∀ c k, (s.callers c).submits = some k → k < s.submissions.length
  unwatched : ∀ c x, Submitting s c x → x.timeout ≠ 0 → ¬ Watched s x.actionId ∧
    ∀ c', ¬ Clearing s c' x.actionId
  alone : ∀ c c' x x', Submitting s c x → Submitting s c' x' → x.timeout ≠ 0 → x'.timeout ≠ 0 →
    x.actionId = x'.actionId → c = c'
  cleared : ∀ c id, Clearing s c id → ¬ Watched s id

section
variable {s s' : Clients} {c : ℕ} {l : Label} {caller : Caller} {threads : List ℕ}
  {ids : List String}

lemma Handles.shrink (h : Handles s) (halive : s'.executor.terminated = false)
    (hbnd : ∀ c k, (s'.callers c).submits = some k → k < s'.submissions.length)
    (hsubm : ∀ c x, Submitting s' c x → Submitting s c x)
    (hclrn : ∀ c id, Clearing s' c id → Clearing s c id)
    (hwat : ∀ id, Watched s' id → Watched s id) : Handles s' where
  alive := halive
  bound := hbnd
  unwatched c x hx htmo := by
    obtain ⟨hnot, hclear⟩ := h.unwatched c x (hsubm c x hx) htmo
    exact ⟨fun hw => hnot (hwat _ hw), fun c' hc => hclear c' (hclrn c' _ hc)⟩
  alone c c' x x' hx hx' := h.alone c c' x x' (hsubm c x hx) (hsubm c' x' hx')
  cleared c id hc hw := h.cleared c id (hclrn c id hc) (hwat id hw)

lemma clearing_of_update {c' : ℕ} {id : String}
    (hcls : s'.callers = Function.update s.callers c caller)
    (hclr : ∀ ids threads, caller ≠ .clearing ids threads) (h : Clearing s' c' id) :
    Clearing s c' id ∧ c' ≠ c := by
  obtain ⟨ids, threads, hk, hid⟩ := h
  obtain ⟨-, hc⟩ | ⟨hne, hc⟩ := caller_cases hcls c'
  · exact absurd (hc.symm.trans hk) (hclr ids threads)
  · exact ⟨⟨ids, threads, hc.symm.trans hk, hid⟩, hne⟩

lemma watched_congr {id : String}
    (h : (s'.executor.runningActions.lookup id).map (·.timeoutThread) =
      (s.executor.runningActions.lookup id).map (·.timeoutThread)) :
    Watched s' id ↔ Watched s id := by
  have hiff : ∀ t : Clients, Watched t id ↔
      ∃ th, (t.executor.runningActions.lookup id).map (·.timeoutThread) = some th ∧
        th.isSome = true := by
    intro t
    simp [Watched, map_eq_some_iff]
  rw [hiff, hiff, h]

lemma Handles.background (h : Handles s) {e : ActionExecutor}
    (hb : ActionExecutor.Background s.executor e) : Handles { s with executor := e } := by
  have hsub : submissions { s with executor := e } = s.submissions := hb.submissions
  refine h.shrink (hb.terminated.trans h.alive) ?_ ?_ (fun _ _ hc => hc) ?_
  · intro c k hk
    rw [hsub]
    exact h.bound c k hk
  · rintro c x ⟨k, hk, hx⟩
    rw [hsub] at hx
    exact ⟨k, hk, hx⟩
  · intro id
    refine (watched_congr ?_).mp
    have hslot := congrArg (Option.map Slot.timeoutThread) (hb.slots id)
    rw [map_map, map_map] at hslot
    exact hslot

lemma Handles.moves (h : Handles s) (hcls : s'.callers = Function.update s.callers c caller)
    (hsub : s'.submissions = s.submissions)
    (hclr : ∀ k, caller.submits = some k → (s.callers c).submits = some k)
    (hclrn : ∀ ids threads, caller ≠ .clearing ids threads)
    (hterm : s'.executor.terminated = false) (hwat : ∀ id, Watched s' id → Watched s id) :
    Handles s' := by
  refine h.shrink hterm ?_ ?_ ?_ hwat
  · intro c' k hk
    rw [hsub]
    exact h.bound c' k (submits_of_update hcls hclr hk)
  · intro c' x
    exact submitting_of_update hcls hclr hsub
  · intro c' id hc
    exact (clearing_of_update hcls hclrn hc).1

lemma watched_of_eq {id : String}
    (hmap : s'.executor.runningActions = s.executor.runningActions) (h : Watched s' id) :
    Watched s id := by
  rwa [Watched, hmap] at h

lemma Handles.submitted {id : String} {object timeout : ℕ} (h : Handles s)
    (hgrd : timeout ≠ 0 → ¬ Watched s id ∧
      ∀ c, (∀ x, Submitting s c x → x.actionId = id → x.timeout = 0) ∧ ¬ Clearing s c id)
    (hsub : s'.submissions = s.submissions ++ [⟨id, object, s.executor.now, timeout⟩])
    (hmap : s'.executor.runningActions = s.executor.runningActions)
    (hterm : s'.executor.terminated = s.executor.terminated)
    (hcls : s'.callers = Function.update s.callers c (.launched s.submissions.length)) :
    Handles s' := by
  have hclear : ∀ c' id', Clearing s' c' id' → Clearing s c' id' := fun c' id' hc =>
    (clearing_of_update hcls (by simp) hc).1
  have hcas : ∀ c' x, Submitting s' c' x →
      (c' = c ∧ x = ⟨id, object, s.executor.now, timeout⟩) ∨ (c' ≠ c ∧ Submitting s c' x) :=
    fun _ _ => submitting_of_submitted h.bound hsub hcls
  refine ⟨hterm.trans h.alive, ?_, ?_, ?_, ?_⟩
  · intro c' k
    exact submits_lt_of_submitted h.bound hsub hcls
  · intro c' x hx htmo
    obtain ⟨rfl, rfl⟩ | ⟨-, hx⟩ := hcas c' x hx
    · obtain ⟨hnot, hfree⟩ := hgrd htmo
      exact ⟨fun hw => hnot (watched_of_eq hmap hw), fun c'' hc => (hfree c'').2 (hclear c'' _ hc)⟩
    · obtain ⟨hnot, hfree⟩ := h.unwatched c' x hx htmo
      exact ⟨fun hw => hnot (watched_of_eq hmap hw), fun c'' hc => hfree c'' (hclear c'' _ hc)⟩
  · intro c₁ c₂ x₁ x₂ hx₁ hx₂ ht₁ ht₂ hid
    obtain ⟨rfl, rfl⟩ | ⟨-, hx₁⟩ := hcas c₁ x₁ hx₁
    · obtain ⟨rfl, -⟩ | ⟨-, hx₂⟩ := hcas c₂ x₂ hx₂
      · rfl
      · exact absurd (((hgrd ht₁).2 c₂).1 x₂ hx₂ hid.symm) ht₂
    · obtain ⟨rfl, rfl⟩ | ⟨-, hx₂⟩ := hcas c₂ x₂ hx₂
      · exact absurd (((hgrd ht₂).2 c₁).1 x₁ hx₁ hid) ht₁
      · exact h.alone c₁ c₂ x₁ x₂ hx₁ hx₂ ht₁ ht₂ hid
  · intro c' id' hc hw
    exact h.cleared c' id' (hclear c' id' hc) (watched_of_eq hmap hw)

lemma Handles.watched {k : ℕ} {x : Submission} (h : Handles s)
    (hclr : s.callers c = .registered k) (hx : s.submissions[k]? = some x)
    (htmo : x.timeout ≠ 0) (hsub : s'.submissions = s.submissions)
    (hmap : s'.executor.runningActions = s.executor.runningActions.modify x.actionId fun e =>
      { e with timeoutThread := some s.executor.monitors.length })
    (hterm : s'.executor.terminated = s.executor.terminated)
    (hcls : s'.callers = Function.update s.callers c .idle) : Handles s' := by
  have hmine : Submitting s c x := ⟨k, by rw [hclr]; rfl, hx⟩
  have hfree := (h.unwatched c x hmine htmo).2
  have hwat : ∀ id, id ≠ x.actionId → Watched s' id → Watched s id := by
    rintro id hid ⟨e, he, hthr⟩
    rw [hmap, lookup_modify, if_neg hid] at he
    exact ⟨e, he, hthr⟩
  have hoth : ∀ c' y, Submitting s' c' y → c' ≠ c ∧ Submitting s c' y := by
    rintro c' y ⟨j, hj, hy⟩
    rw [hsub] at hy
    obtain ⟨-, hc⟩ | ⟨hne, hc⟩ := caller_cases hcls c'
    · rw [hc] at hj
      cases hj
    · rw [hc] at hj
      exact ⟨hne, j, hj, hy⟩
  have hclear : ∀ c' id, Clearing s' c' id → Clearing s c' id := fun c' id hc =>
    (clearing_of_update hcls (by simp) hc).1
  refine ⟨hterm.trans h.alive, ?_, ?_, ?_, ?_⟩
  · intro c' j hj
    rw [hsub]
    exact h.bound c' j (submits_of_update hcls (fun _ h => by cases h) hj)
  · intro c' y hy hy0
    obtain ⟨hne, hy⟩ := hoth c' y hy
    obtain ⟨hnot, hfree'⟩ := h.unwatched c' y hy hy0
    have hid : y.actionId ≠ x.actionId := fun hid => hne (h.alone c' c y x hy hmine hy0 htmo hid)
    exact ⟨fun hw => hnot (hwat _ hid hw), fun c'' hc => hfree' c'' (hclear c'' _ hc)⟩
  · intro c₁ c₂ x₁ x₂ hx₁ hx₂
    exact h.alone c₁ c₂ x₁ x₂ (hoth c₁ x₁ hx₁).2 (hoth c₂ x₂ hx₂).2
  · intro c' id hc hw
    have hc := hclear c' id hc
    have hid : id ≠ x.actionId := by
      rintro rfl
      exact hfree c' hc
    exact h.cleared c' id hc (hwat id hid hw)

lemma Handles.collected (h : Handles s)
    (hgrd : ∀ id ∈ s.executor.completed.map (·.1), ∀ c x, Submitting s c x →
      x.actionId = id → x.timeout = 0) (hsub : s'.submissions = s.submissions)
    (hmap : s'.executor.runningActions =
      collect s.executor.runningActions (s.executor.completed.map (·.1)))
    (hterm : s'.executor.terminated = s.executor.terminated)
    (hcls : s'.callers =
      Function.update s.callers c (.clearing (s.executor.completed.map (·.1)) threads)) :
    Handles s' := by
  have hwat : ∀ id, Watched s' id → Watched s id ∧ id ∉ s.executor.completed.map (·.1) := by
    rintro id ⟨e, he, hthr⟩
    rw [hmap, collect, lookup_foldl_modify (fun e => by simp)] at he
    split_ifs at he with hid
    · obtain ⟨e₀, -, rfl⟩ := map_eq_some_iff.mp he
      cases hthr
    · exact ⟨⟨e, he, hthr⟩, hid⟩
  have hsubm : ∀ c' x, Submitting s' c' x → Submitting s c' x :=
    fun c' x => submitting_of_update hcls (fun _ h => by cases h) hsub
  have hclear : ∀ c' id, Clearing s' c' id →
      id ∈ s.executor.completed.map (·.1) ∨ Clearing s c' id := by
    rintro c' id ⟨ids, threads', hk, hid⟩
    obtain ⟨-, hc⟩ | ⟨-, hc⟩ := caller_cases hcls c'
    · rw [hc] at hk
      cases hk
      exact .inl hid
    · exact .inr ⟨ids, threads', hc.symm.trans hk, hid⟩
  refine ⟨hterm.trans h.alive, ?_, ?_, ?_, ?_⟩
  · intro c' k hk
    rw [hsub]
    exact h.bound c' k (submits_of_update hcls (fun _ h => by cases h) hk)
  · intro c' x hx hx0
    have hx := hsubm c' x hx
    obtain ⟨hnot, hfree⟩ := h.unwatched c' x hx hx0
    refine ⟨fun hw => hnot (hwat _ hw).1, fun c'' hc => ?_⟩
    obtain hid | hc := hclear c'' _ hc
    · exact hx0 (hgrd _ hid c' x hx rfl)
    · exact hfree c'' hc
  · intro c₁ c₂ x₁ x₂ hx₁ hx₂
    exact h.alone c₁ c₂ x₁ x₂ (hsubm c₁ x₁ hx₁) (hsubm c₂ x₂ hx₂)
  · intro c' id hc hw
    obtain ⟨hw, hid⟩ := hwat id hw
    obtain hid' | hc := hclear c' id hc
    · exact hid hid'
    · exact h.cleared c' id hc hw

lemma watched_of_insert {key id : String} {e : ExecutionState}
    (hmap : s'.executor.runningActions = s.executor.runningActions.insert key e)
    (he : e.timeoutThread = none) (h : Watched s' id) : Watched s id := by
  obtain ⟨e', he', hthr⟩ := h
  rw [hmap] at he'
  rcases lookup_insert_cases he' with ⟨rfl, rfl⟩ | ⟨-, he'⟩
  · rw [he] at hthr
    cases hthr
  · exact ⟨e', he', hthr⟩

lemma watched_of_erase {id : String}
    (hmap : s'.executor.runningActions =
      ids.foldl (fun m id => m.erase id) s.executor.runningActions) (h : Watched s' id) :
    Watched s id := by
  obtain ⟨e, he, hthr⟩ := h
  rw [hmap, lookup_foldl_erase] at he
  split_ifs at he
  exact ⟨e, he, hthr⟩

lemma Handles.not_watched_of_clearing (h : Handles s)
    (hclr : s.callers c = .clearing ids threads) :
    (ids.any fun id =>
      (s.executor.runningActions.lookup id).any (·.timeoutThread.isSome)) = false := by
  rw [List.any_eq_false]
  intro id hid hany
  refine h.cleared c id ⟨ids, threads, hclr, hid⟩ ?_
  cases he : s.executor.runningActions.lookup id with
  | none =>
    rw [he] at hany
    cases hany
  | some e =>
    rw [he] at hany
    exact ⟨e, he, hany⟩

end

lemma handles_init : Handles init where
  alive := rfl
  bound c k h := by cases h
  unwatched c x := by
    rintro ⟨k, hk, -⟩
    cases hk
  alone c c' x x' := by
    rintro ⟨k, hk, -⟩
    cases hk
  cleared c id := by
    rintro ⟨ids, threads, hc, -⟩
    cases hc

lemma handles_next (s : Clients) (cl : ℕ × Label) (s' : Clients) (h : Handles s)
    (hg : OneMonitor s cl) (hn : next s cl = some s') : Handles s' := by
  obtain ⟨c, l⟩ := cl
  cases hl : l.isClient with
  | false =>
    obtain ⟨-, e, he, rfl⟩ := other_of_next hl hn
    exact h.background (ActionExecutor.worked_of_step hl he).background
  | true =>
    obtain ⟨e, hser, rfl⟩ := served_of_next hl hn
    cases hser with
    | submitted id object timeout =>
      exact h.submitted hg List.map_append rfl rfl (callers_submitted s c)
    | kept k x hclr =>
      exact h.moves rfl rfl (fun _ => (congrArg Caller.submits hclr).trans) (by simp) h.alive
        fun _ hw => hw
    | registered k x hclr =>
      exact h.moves rfl rfl (fun _ => (congrArg Caller.submits hclr).trans) (by simp) h.alive
        fun _ => watched_of_insert rfl rfl
    | dropped k hclr =>
      exact h.moves rfl rfl (fun _ => (congrArg Caller.submits hclr).trans) (by simp) h.alive
        fun _ hw => hw
    | unwatched =>
      exact h.moves rfl rfl (by simp [Caller.submits]) (by simp) h.alive fun _ hw => hw
    | overwritten k x entry hclr hx htmo hent hthr =>
      have hmine : Submitting s c x.submission :=
        ⟨k, congrArg Caller.submits hclr, submission_of_execution hx⟩
      exact absurd ⟨entry, hent, hthr⟩ (h.unwatched c _ hmine htmo).1
    | watched k x entry hclr hx htmo =>
      exact h.watched hclr (submission_of_execution hx) htmo rfl rfl rfl rfl
    | waited id hclr =>
      exact h.moves (congrArg (Function.update s.callers c) hclr) rfl (by simp [Caller.submits])
        (by simp) h.alive fun _ hw => hw
    | collected => exact h.collected hg rfl rfl rfl rfl
    | erased ids threads hclr =>
      exact h.moves rfl rfl (by simp [Caller.submits]) (by simp) (h.not_watched_of_clearing hclr)
        fun _ => watched_of_erase rfl

theorem neverTerminates_of_oneMonitor (ls : List (ℕ × Label)) : NeverTerminates OneMonitor ls := by
  intro s hrun
  exact (hrun.invariant Handles handles_init handles_next).alive

/-- The entry holds the thread of the first attempt when the second attempt starts its own. -/
def retryWithTimeout : List (ℕ × Label) :=
  [(0, .executeAsync "pick" 0 100), (0, .emplace), (0, .startMonitor), (0, .finish 0 none),
    (0, .waitForCompletion "pick"), (0, .executeAsync "pick" 1 100), (0, .emplace),
    (0, .finish 1 none), (0, .dropFuture), (0, .startMonitor)]

theorem not_neverTerminates : ¬ ∀ ls, NeverTerminates (fun _ _ => True) ls := by
  intro h
  have hexec : ∃ s, exec next (fun _ _ => true) init retryWithTimeout = some s ∧
      s.executor.terminated = true := ⟨_, rfl, rfl⟩
  obtain ⟨s, hs, hterm⟩ := hexec
  have halive := h retryWithTimeout s (Run.of_exec (fun _ _ _ => trivial) hs)
  rw [hterm] at halive
  cases halive

/-- Client 1 collects the entry before client 0 attaches the thread, and erases it after. -/
example : ∃ s, exec next (fun _ _ => true) init
    [(0, .executeAsync "pick" 0 100), (0, .emplace), (0, .setStatus 0 .completed),
      (0, .finish 0 none), (1, .clearCollect), (0, .startMonitor), (1, .clearErase)] = some s ∧
    s.executor.terminated = true :=
  ⟨_, rfl, rfl⟩

end Mxrc.Action.Clients
