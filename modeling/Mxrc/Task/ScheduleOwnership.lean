import Mxrc.Task.PeriodicScheduler

/-!
# Who owns a schedule

When conflicting calls do not overlap, a schedule in the map is running, one
that a call has taken is ended by that call alone, and one that is gone was
joined. A step changes only what its call owns and the map (`CallChange`).
-/

namespace Mxrc.Task
open List

namespace CallKind

def Concerns : CallKind → String → Prop
  | .start taskId, id => taskId = id
  | .stop taskId, id => taskId = id
  | .stopAll, _ => True

/-- The calls may be about the same schedule, and one of them is not just a `stop`. -/
def Conflicts : CallKind → CallKind → Prop
  | .stopAll, _ => True
  | _, .stopAll => True
  | .stop _, .stop _ => False
  | .start a, .start b => a = b
  | .start a, .stop b => a = b
  | .stop a, .start b => a = b

lemma Conflicts.symm {a b : CallKind} (h : Conflicts a b) : Conflicts b a := by
  cases a <;> cases b <;> simp_all [Conflicts]

lemma conflicts_start {kind : CallKind} {id : String} (h : kind.Concerns id) :
    Conflicts kind (.start id) := by
  cases kind <;> simp_all [Conflicts, Concerns]

end CallKind

namespace PeriodicScheduler

abbrev HasInfo (s : PeriodicScheduler) (j : ℕ) (x : ScheduleInfo) : Prop := s.infos[j]? = some x

abbrev HasCall (s : PeriodicScheduler) (i : ℕ) (c : SchedulerCall) : Prop := s.calls[i]? = some c

structure Holds (s : PeriodicScheduler) (c : SchedulerCall) (j : ℕ) (x : ScheduleInfo) : Prop where
  unfinished : c.phase ≠ .returned
  concerns : c.kind.Concerns x.taskId
  mem : j ∈ c.old
  absent : j ∈ c.todo → x.taskId ∉ s.schedules
  notJoined : j ∈ c.todo → x.joined = false
  running : j ∈ c.todo → x.running = false → c.phase = .joining ∧ c.todo.head? = some j
  done : j ∉ c.todo → x.joined = true ∧ x.thread = .ended

structure CallOk (s : PeriodicScheduler) (i : ℕ) (c : SchedulerCall) : Prop where
  old : c.phase ≠ .returned → ∀ j ∈ c.old, ∃ x, HasInfo s j x ∧ x.owner = .call i
  nodup : c.todo.Nodup
  subset : c.todo ⊆ c.old
  entering : c.phase = .entering → c.old = []
  finished : c.phase ∈ [.inserting, .returning] → c.todo = []
  absent : c.phase ∈ [.testing, .clearing, .joining, .inserting] → ∀ id, c.kind = .start id →
    id ∉ s.schedules

structure StopsAll (s : PeriodicScheduler) (c : SchedulerCall) : Prop where
  noStart : ∀ i c, HasCall s i c → c.unfinishedStart = false
  empty : c.phase ≠ .entering → ∀ id, id ∉ s.schedules
  ended : c.phase = .returned →
    ∀ j x, HasInfo s j x → x.thread = .ended

structure Inv (s : PeriodicScheduler) : Prop where
  registered : ∀ id j, s.schedules.lookup id = some j →
    ∃ x, HasInfo s j x ∧ x.taskId = id ∧ x.owner = .map
  map : ∀ j x, HasInfo s j x → x.owner = .map →
    s.schedules.lookup x.taskId = some j ∧ x.running = true ∧ x.joined = false
  held : ∀ j x i, HasInfo s j x → x.owner = .call i →
    ∃ c, HasCall s i c ∧ Holds s c j x
  gone : ∀ j x, HasInfo s j x → x.owner = .gone →
    x.joined = true ∧ x.thread = .ended
  call : ∀ i c, HasCall s i c → CallOk s i c
  apart : ∀ i i' c c', HasCall s i c → HasCall s i' c' →
    i ≠ i' → c.phase ≠ .returned → c'.phase ≠ .returned → ¬ CallKind.Conflicts c.kind c'.kind
  stopsAll : ∀ i c, HasCall s i c → c.kind = .stopAll →
    c.undisturbed = true → StopsAll s c

lemma Inv.holds_of_owner {s : PeriodicScheduler} {i j : ℕ} {c : SchedulerCall} {x : ScheduleInfo}
    (h : Inv s) (hc : HasCall s i c) (hx : HasInfo s j x) (hwnr : x.owner = .call i) :
    Holds s c j x := by
  obtain ⟨d, hd, hhol⟩ := h.held j x i hx hwnr
  cases hc.symm.trans hd
  exact hhol

section
variable {s : PeriodicScheduler} {i i' j k : ℕ} {c c' d : SchedulerCall} {x : ScheduleInfo}

lemma hasCall_set {calls : List SchedulerCall} (hc : calls[i]? = some c) :
    (calls.set i c')[i']? = some d ↔ i' = i ∧ d = c' ∨ i' ≠ i ∧ calls[i']? = some d := by
  have hlt : i < calls.length := (List.getElem?_eq_some_iff.mp hc).1
  rw [getElem?_set]
  by_cases hi : i = i'
  · subst hi
    simp [hlt, eq_comm]
  · simp [hi, Ne.symm hi]

lemma hasInfo_give {js : List ℕ} {owner : Owner} :
    HasInfo (s.give js owner) j x ↔
      ∃ y, HasInfo s j y ∧ x = if j ∈ js then { y with owner } else y := by
  simp [HasInfo, give, getElem?_mapIdx, eq_comm]

lemma hasInfo_modifyInfo {f : ScheduleInfo → ScheduleInfo} :
    HasInfo (s.modifyInfo k f) j x ↔ ∃ y, HasInfo s j y ∧ x = if k = j then f y else y := by
  simp [HasInfo, modifyInfo, getElem?_modify, eq_comm]

lemma getElem?_concat_eq_some {α : Type*} {l : List α} {a b : α} :
    (l ++ [a])[j]? = some b ↔ l[j]? = some b ∨ j = l.length ∧ b = a := by
  rw [getElem?_append]
  split_ifs with hlt
  · simp [hlt.ne]
  · have hnone : l[j]? = none := getElem?_eq_none (not_lt.mp hlt)
    rcases Nat.eq_or_lt_of_le (not_lt.mp hlt) with rfl | hgt
    · simp [eq_comm]
    · simp [hnone, hgt.ne', Nat.sub_ne_zero_of_lt hgt]

end

structure CallChange (s s' : PeriodicScheduler) (i : ℕ) (c c' : SchedulerCall) : Prop where
  calls : s'.calls = s.calls.set i c'
  kind : c'.kind = c.kind
  undisturbed : c'.undisturbed = c.undisturbed
  schedules : ∀ id ∈ s'.schedules, id ∈ s.schedules ∨ c.kind = .start id
  others : ∀ j x i', i' ≠ i → x.owner = .call i' → (HasInfo s' j x ↔ HasInfo s j x)
  threads : c.kind.isStart = false → ∀ j x', HasInfo s' j x' → ∃ x, HasInfo s j x ∧
    x'.thread = x.thread

section
variable {s s' : PeriodicScheduler} {i : ℕ} {c c' : SchedulerCall}

section
variable (hch : CallChange s s' i c c') (h : Inv s) (hc : HasCall s i c)
  (hph : c.phase ≠ .returned)
include hch h hc hph

lemma CallChange.absent {i' : ℕ} {d : SchedulerCall} {id : String} (hi : i' ≠ i)
    (hd : HasCall s i' d) (hdph : d.phase ≠ .returned) (hconc : d.kind.Concerns id)
    (hid : id ∉ s.schedules) : id ∉ s'.schedules := by
  intro hid'
  rcases hch.schedules id hid' with hold | hstr
  · exact hid hold
  · have hcon := CallKind.conflicts_start hconc
    rw [← hstr] at hcon
    exact h.apart i' i d c hd hc hi hdph hph hcon

lemma CallChange.stopsAll
    (hown : c.kind = .stopAll → StopsAll s c → (c'.phase ≠ .entering → ∀ id, id ∉ s'.schedules) ∧
      (c'.phase = .returned → ∀ j x, HasInfo s' j x → x.thread = .ended)) {i' : ℕ}
    {d : SchedulerCall} (hd : HasCall s' i' d) (hkind : d.kind = .stopAll)
    (hund : d.undisturbed = true) : StopsAll s' d := by
  -- the call before the step, with what it says about all calls
  have hbef : ∃ d₀, HasCall s i' d₀ ∧ d₀.kind = .stopAll ∧ d₀.undisturbed = true ∧
      (i' = i ∧ d₀ = c ∧ d = c' ∨ i' ≠ i ∧ d₀ = d) := by
    rw [HasCall, hch.calls, hasCall_set hc] at hd
    rcases hd with ⟨rfl, rfl⟩ | ⟨hne, hd⟩
    · exact ⟨c, hc, hch.kind ▸ hkind, hch.undisturbed ▸ hund, Or.inl ⟨rfl, rfl, rfl⟩⟩
    · exact ⟨d, hd, hkind, hund, Or.inr ⟨hne, rfl⟩⟩
  obtain ⟨d₀, hd₀, hkind₀, hund₀, hwhc⟩ := hbef
  have hstp := h.stopsAll i' d₀ hd₀ hkind₀ hund₀
  have hstr : c.kind.isStart = false := by
    simpa [SchedulerCall.unfinishedStart, hph] using hstp.noStart i c hc
  have hnoStart : ∀ i c, HasCall s' i c → c.unfinishedStart = false := by
    intro k e he
    rw [HasCall, hch.calls, hasCall_set hc] at he
    rcases he with ⟨rfl, rfl⟩ | ⟨-, he⟩
    · simp [SchedulerCall.unfinishedStart, hch.kind, hstr]
    · exact hstp.noStart k e he
  rcases hwhc with ⟨rfl, rfl, rfl⟩ | ⟨hne, rfl⟩
  · obtain ⟨hemp, hend⟩ := hown hkind₀ hstp
    exact ⟨hnoStart, hemp, hend⟩
  · have hret : d₀.phase = .returned := by
      by_contra hunf
      refine h.apart i' i d₀ c hd₀ hc hne hunf hph ?_
      rw [hkind₀]
      trivial
    have hemp := hstp.empty (by rw [hret]; nofun)
    refine ⟨hnoStart, fun _ id hid => ?_, fun _ j x hx => ?_⟩
    · rcases hch.schedules id hid with hold | hkind
      · exact hemp id hold
      · rw [hkind] at hstr
        cases hstr
    · obtain ⟨y, hy, hthr⟩ := hch.threads hstr j x hx
      exact hthr.trans (hstp.ended hret j y hy)

end

lemma Inv.of_change (h : Inv s) (hc : HasCall s i c) (hph : c.phase ≠ .returned)
    (hch : CallChange s s' i c c')
    (hreg : ∀ id j, s'.schedules.lookup id = some j →
      ∃ x, HasInfo s' j x ∧ x.taskId = id ∧ x.owner = .map)
    (hmap : ∀ j x, HasInfo s' j x → x.owner = .map →
      s'.schedules.lookup x.taskId = some j ∧ x.running = true ∧ x.joined = false)
    (hheld : ∀ j x, HasInfo s' j x → x.owner = .call i → Holds s' c' j x)
    (hgone : ∀ j x, HasInfo s' j x → x.owner = .gone → x.joined = true ∧ x.thread = .ended)
    (hcall : CallOk s' i c')
    (hown : c.kind = .stopAll → StopsAll s c → (c'.phase ≠ .entering → ∀ id, id ∉ s'.schedules) ∧
      (c'.phase = .returned → ∀ j x, HasInfo s' j x → x.thread = .ended)) : Inv s' where
  registered := hreg
  map := hmap
  held j x i' hx hwnr := by
    have hcal : ∀ {i' d}, HasCall s' i' d ↔ i' = i ∧ d = c' ∨ i' ≠ i ∧ HasCall s i' d := by
      intro i' d
      rw [HasCall, hch.calls, hasCall_set hc]
    by_cases hi : i' = i
    · subst hi
      exact ⟨c', hcal.mpr (Or.inl ⟨rfl, rfl⟩), hheld j x hx hwnr⟩
    · obtain ⟨d, hd, hhol⟩ := h.held j x i' ((hch.others j x i' hi hwnr).mp hx) hwnr
      refine ⟨d, hcal.mpr (Or.inr ⟨hi, hd⟩), { hhol with absent := fun hj => ?_ }⟩
      exact hch.absent h hc hph hi hd hhol.unfinished hhol.concerns (hhol.absent hj)
  gone := hgone
  call i' d hd := by
    rw [HasCall, hch.calls, hasCall_set hc] at hd
    rcases hd with ⟨rfl, rfl⟩ | ⟨hi, hd⟩
    · exact hcall
    · have hok := h.call i' d hd
      refine { hok with old := fun hunf j hj => ?_, absent := fun hclear id hkind => ?_ }
      · obtain ⟨x, hx, hwnr⟩ := hok.old hunf j hj
        exact ⟨x, (hch.others j x i' hi hwnr).mpr hx, hwnr⟩
      · have hunf : d.phase ≠ .returned := by
          rintro hret
          rw [hret] at hclear
          simp at hclear
        refine hch.absent h hc hph hi hd hunf ?_ (hok.absent hclear id hkind)
        rw [hkind]
        rfl
  apart i₁ i₂ c₁ c₂ h₁ h₂ hne hph₁ hph₂ := by
    rw [HasCall, hch.calls, hasCall_set hc] at h₁ h₂
    rcases h₁ with ⟨rfl, rfl⟩ | ⟨-, h₁⟩ <;> rcases h₂ with ⟨rfl, rfl⟩ | ⟨-, h₂⟩
    · exact absurd rfl hne
    · rw [hch.kind]
      exact h.apart _ _ c c₂ hc h₂ hne hph hph₂
    · rw [hch.kind]
      exact h.apart _ _ c₁ c h₁ hc hne hph₁ hph
    · exact h.apart _ _ c₁ c₂ h₁ h₂ hne hph₁ hph₂
  stopsAll i' d hd hkind hund := hch.stopsAll h hc hph hown hd hkind hund

end
end PeriodicScheduler
end Mxrc.Task
