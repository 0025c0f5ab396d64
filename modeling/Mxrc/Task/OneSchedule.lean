import Mxrc.Lib.Maps
import Mxrc.Task.ScheduleOwnership

/-!
# At most one schedule per task

`start` leaves the mutex between taking the old schedule from the map and
inserting the new one, a `stop` may still be ending a schedule when `start`
inserts the next one, and `stopAll` does not wait for a schedule that another
call has taken.
-/

namespace Mxrc.Task
open Mxrc.Lib List Option AList

namespace PeriodicScheduler

structure Sound (s : PeriodicScheduler) : Prop where
  oneLive : ∀ id ∈ s.schedules, ∀ j j' x x', HasInfo s j x → HasInfo s j' x' →
    x.taskId = id → x'.taskId = id → x.thread ≠ .ended → x'.thread ≠ .ended → j = j'
  destroyed : ∀ j x, HasInfo s j x → x.owner = .gone →
    x.joined = true ∧ x.thread = .ended
  stopped : ∀ i c, HasCall s i c → c.kind = .stopAll →
    c.phase = .returned → c.undisturbed = true →
      ∀ j x, HasInfo s j x → x.thread ≠ .calling

def OneSchedule (G : PeriodicScheduler → SchedulerStep → Prop) (ls : List SchedulerStep) : Prop :=
  ∀ s, Run next G init ls s → Sound s

def NoConflict (s : PeriodicScheduler) (l : SchedulerStep) : Prop :=
  ∀ kind, l = .call kind → ∀ i c, HasCall s i c →
    c.phase ≠ .returned → ¬ CallKind.Conflicts c.kind kind

lemma Inv.sound {s : PeriodicScheduler} (h : Inv s) : Sound s where
  oneLive := by
    have hmap : ∀ id ∈ s.schedules, ∀ j x, HasInfo s j x →
        x.taskId = id → x.thread ≠ .ended → s.schedules.lookup id = some j := by
      intro id hid j x hx htask hlive
      cases hown : x.owner with
      | map => exact htask ▸ (h.map j x hx hown).1
      | call i =>
        obtain ⟨c, -, hc⟩ := h.held j x i hx hown
        by_cases hj : j ∈ c.todo
        · exact absurd (htask.symm ▸ hid) (hc.absent hj)
        · exact absurd (hc.done hj).2 hlive
      | gone => exact absurd (h.gone j x hx hown).2 hlive
    intro id hid j j' x x' hx hx' htask htask' hlive hlive'
    have hj := hmap id hid j x hx htask hlive
    have hj' := hmap id hid j' x' hx' htask' hlive'
    exact Option.some.inj (hj.symm.trans hj')
  destroyed := h.gone
  stopped i c hc hkind hph hund j x hx hcal := by
    have hend := (h.stopsAll i c hc hkind hund).ended hph j x hx
    rw [hend] at hcal
    cases hcal

section
variable {s s' : PeriodicScheduler} {i j : ℕ} {c c' : SchedulerCall} {todo : List ℕ}
  {x : ScheduleInfo} {kind : CallKind}

lemma Inv.extract (h : Inv s) (hc : HasCall s i c) (hph : c.phase = .entering) {js : List ℕ}
    {schedules : AList (fun _ : String => ℕ)} (hnd : js.Nodup)
    (hjs : ∀ j ∈ js, ∃ id, s.schedules.lookup id = some j ∧ c.kind.Concerns id)
    (hlk : ∀ id j, schedules.lookup id = some j ↔ s.schedules.lookup id = some j ∧ j ∉ js)
    (habs : ∀ id, c.kind.Concerns id → id ∉ schedules) (hkind : c'.kind = c.kind)
    (hund : c'.undisturbed = c.undisturbed) (hold : c'.old = js) (htodo : c'.todo = js)
    (hrest : c'.phase ∉ [.entering, .joining, .returned])
    (hfin : c'.phase ∈ [.inserting, .returning] → js = []) :
    Inv (({ s with schedules }.give js (.call i)).setCall i c') := by
  have hinfo : ∀ {j x}, HasInfo (({ s with schedules }.give js (.call i)).setCall i c') j x ↔
      ∃ y, HasInfo s j y ∧ x = if j ∈ js then { y with owner := .call i } else y := hasInfo_give
  have hunf : c.phase ≠ .returned := by rw [hph]; nofun
  have hnone : ∀ j y, HasInfo s j y → y.owner ≠ .call i := by
    intro j y hy hown
    have hmem := (h.holds_of_owner hc hy hown).mem
    rw [(h.call i c hc).entering hph] at hmem
    cases hmem
  have htak : ∀ j ∈ js, ∃ y, HasInfo s j y ∧ y.owner = .map ∧ c.kind.Concerns y.taskId := by
    intro j hj
    obtain ⟨id, hid, hconc⟩ := hjs j hj
    obtain ⟨y, hy, rfl, hown⟩ := h.registered id j hid
    exact ⟨y, hy, hown, hconc⟩
  have hkeys : ∀ id ∈ schedules, id ∈ s.schedules := by
    intro id hid
    obtain ⟨j, hj⟩ := isSome_iff_exists.mp (lookup_isSome.mpr hid)
    exact lookup_isSome.mp (by rw [((hlk id j).mp hj).1]; rfl)
  simp only [mem_cons, not_mem_nil, or_false, not_or] at hrest
  refine h.of_change hc hunf ⟨rfl, hkind, hund, fun id hid => Or.inl (hkeys id hid),
    fun j x i' hi hown => ?_, fun _ j x' hx' => ?_⟩ ?_ ?_ ?_ ?_ ?_ ?_
  · rw [hinfo]
    constructor
    · rintro ⟨y, hy, rfl⟩
      split_ifs at hown ⊢ with hj
      · exact absurd (Owner.call.inj hown).symm hi
      · exact hy
    · intro hx
      refine ⟨x, hx, ?_⟩
      rw [if_neg]
      intro hj
      obtain ⟨y, hy, hmap, -⟩ := htak j hj
      cases hx.symm.trans hy
      rw [hmap] at hown
      cases hown
  · obtain ⟨y, hy, rfl⟩ := hinfo.mp hx'
    exact ⟨y, hy, by split_ifs <;> rfl⟩
  · intro id j hid
    obtain ⟨hid, hj⟩ := (hlk id j).mp hid
    obtain ⟨y, hy, htask, hown⟩ := h.registered id j hid
    exact ⟨y, hinfo.mpr ⟨y, hy, by rw [if_neg hj]⟩, htask, hown⟩
  · intro j x hx hown
    obtain ⟨y, hy, hxy⟩ := hinfo.mp hx
    by_cases hj : j ∈ js
    · simp [hxy, hj] at hown
    · rw [if_neg hj] at hxy
      subst hxy
      obtain ⟨hid, hrng, hjnd⟩ := h.map j x hy hown
      exact ⟨(hlk _ j).mpr ⟨hid, hj⟩, hrng, hjnd⟩
  · intro j x hx hown
    obtain ⟨y, hy, rfl⟩ := hinfo.mp hx
    split_ifs at hown ⊢ with hj
    · obtain ⟨y', hy', hmap, hconc⟩ := htak j hj
      cases hy.symm.trans hy'
      obtain ⟨-, hrng, hjnd⟩ := h.map j y hy hmap
      refine ⟨hrest.2.2, hkind ▸ hconc, hold ▸ hj, fun _ => habs _ hconc,
        fun _ => hjnd, fun _ hfal => ?_, fun hnot => absurd (htodo ▸ hj) hnot⟩
      rw [show y.running = false from hfal] at hrng
      cases hrng
    · exact absurd hown (hnone j y hy)
  · intro j x hx hown
    obtain ⟨y, hy, rfl⟩ := hinfo.mp hx
    split_ifs at hown ⊢ with hj
    exact h.gone j y hy hown
  · refine ⟨fun _ j hj => ?_, htodo ▸ hnd, by rw [htodo, hold]; exact List.Subset.refl _,
      fun hent => absurd hent hrest.1, fun hp => htodo ▸ hfin hp,
      fun _ id hstr => habs id ?_⟩
    · rw [hold] at hj
      obtain ⟨y, hy, -⟩ := htak j hj
      exact ⟨_, hinfo.mpr ⟨y, hy, rfl⟩, by rw [if_pos hj]⟩
    · rw [← hkind, hstr]
      rfl
  · intro hall _
    refine ⟨fun _ id => habs id (by rw [hall]; trivial), fun hret => ?_⟩
    exact absurd hret hrest.2.2

lemma Inv.holds (h : Inv s) (hc : HasCall s i c) (hph : c.phase ≠ .returned) {j : ℕ}
    (hj : j ∈ c.old) : ∃ x, HasInfo s j x ∧ x.owner = .call i ∧ Holds s c j x := by
  obtain ⟨x, hx, hown⟩ := (h.call i c hc).old hph j hj
  exact ⟨x, hx, hown, h.holds_of_owner hc hx hown⟩

lemma Inv.work (h : Inv s) (hc : HasCall s i c)
    (hph : c.phase ∈ [.testing, .clearing, .joining]) (hj : j ∈ c.old)
    {f : ScheduleInfo → ScheduleInfo}
    (hf : ∀ x, (f x).taskId = x.taskId ∧ (f x).thread = x.thread ∧ (f x).owner = x.owner)
    (hkind : c'.kind = c.kind) (hund : c'.undisturbed = c.undisturbed)
    (hold : c'.old = c.old) (hnd : c'.todo.Nodup) (hsub : c'.todo ⊆ c.old)
    (hrest : c'.phase ∉ [.entering, .returned])
    (hfin : c'.phase ∈ [.inserting, .returning] → c'.todo = [])
    (hhol : ∀ k y, HasInfo s k y → Holds s c k y →
      Holds ((s.modifyInfo j f).setCall i c') c' k (if j = k then f y else y)) :
    Inv ((s.modifyInfo j f).setCall i c') := by
  have hinfo : ∀ {k x}, HasInfo ((s.modifyInfo j f).setCall i c') k x ↔
      ∃ y, HasInfo s k y ∧ x = if j = k then f y else y := hasInfo_modifyInfo
  simp only [mem_cons, not_mem_nil, or_false, not_or] at hph hrest
  have hunf : c.phase ≠ .returned := by
    rintro hret
    simp [hret] at hph
  have hown : ∀ k (y : ScheduleInfo), (if j = k then f y else y).owner = y.owner := by
    intro k y
    split_ifs
    · exact (hf y).2.2
    · rfl
  obtain ⟨z, hz, hzow, -⟩ := h.holds hc hunf hj
  have hkept : ∀ {k x}, x.owner ≠ .call i →
      (HasInfo ((s.modifyInfo j f).setCall i c') k x ↔ HasInfo s k x) := by
    have hsame : ∀ {k y}, HasInfo s k y → y.owner ≠ .call i → (if j = k then f y else y) = y := by
      intro k y hy hne
      rw [if_neg]
      rintro rfl
      cases hz.symm.trans hy
      exact hne hzow
    intro k x hne
    rw [hinfo]
    constructor
    · rintro ⟨y, hy, rfl⟩
      rw [hown] at hne
      rwa [hsame hy hne]
    · intro hx
      exact ⟨x, hx, (hsame hx hne).symm⟩
  refine h.of_change hc hunf ⟨rfl, hkind, hund, fun id hid => Or.inl hid,
    fun k x i' hi hxow => ?_, fun _ k x hx => ?_⟩ ?_ ?_ ?_ ?_ ?_ ?_
  · exact hkept fun hx => hi (Owner.call.inj (hxow.symm.trans hx))
  · obtain ⟨y, hy, rfl⟩ := hinfo.mp hx
    refine ⟨y, hy, ?_⟩
    split_ifs
    · exact (hf y).2.1
    · rfl
  · intro id k hk
    obtain ⟨y, hy, htask, hyow⟩ := h.registered id k hk
    exact ⟨y, (hkept (by rw [hyow]; nofun)).mpr hy, htask, hyow⟩
  · intro k x hx hxow
    exact h.map k x ((hkept (by rw [hxow]; nofun)).mp hx) hxow
  · intro k x hx hxow
    obtain ⟨y, hy, rfl⟩ := hinfo.mp hx
    rw [hown] at hxow
    exact hhol k y hy (h.holds_of_owner hc hy hxow)
  · intro k x hx hxow
    exact h.gone k x ((hkept (by rw [hxow]; nofun)).mp hx) hxow
  · have hok := h.call i c hc
    refine ⟨fun _ k hk => ?_, hnd, hold ▸ hsub, fun hent => absurd hent hrest.1,
      hfin, fun _ id hstr => ?_⟩
    · rw [hold] at hk
      obtain ⟨y, hy, hyow, -⟩ := h.holds hc hunf hk
      exact ⟨_, hinfo.mpr ⟨y, hy, rfl⟩, by rw [hown, hyow]⟩
    · refine hok.absent ?_ id (hkind ▸ hstr)
      simp only [mem_cons]
      tauto
  · intro _ hstp
    refine ⟨fun _ => hstp.empty ?_, fun hret => absurd hret hrest.2⟩
    rintro hent
    simp [hent] at hph

lemma Inv.lookup_inj (h : Inv s) {id id' : String} (hid : s.schedules.lookup id = some j)
    (hid' : s.schedules.lookup id' = some j) : id = id' := by
  obtain ⟨x, hx, rfl, -⟩ := h.registered id j hid
  obtain ⟨x', hx', rfl, -⟩ := h.registered id' j hid'
  cases hx.symm.trans hx'
  rfl

lemma give_nil (owner : Owner) : s.give [] owner = s := by
  have hmap : s.infos.mapIdx (fun _ x => x) = s.infos := by
    apply ext_getElem?
    simp [getElem?_mapIdx]
  simp [give, hmap]

lemma Inv.stopInternal (h : Inv s) (i : ℕ) (id : String) :
    ∃ js schedules, s.stopInternal i id = (js, { s with schedules }.give js (.call i)) ∧
      js.Nodup ∧ (∀ j ∈ js, s.schedules.lookup id = some j) ∧ id ∉ schedules ∧
      ∀ id' j, schedules.lookup id' = some j ↔ s.schedules.lookup id' = some j ∧ j ∉ js := by
  unfold PeriodicScheduler.stopInternal
  cases hid : s.schedules.lookup id with
  | none => exact ⟨[], s.schedules, by simp [give_nil], by simp, by simp,
      AList.lookup_eq_none.mp hid, by simp⟩
  | some j =>
    refine ⟨[j], s.schedules.erase id, rfl, by simp, by simp, by simp [mem_erase], ?_⟩
    intro id' k
    by_cases hne : id' = id
    · subst hne
      rw [lookup_erase, hid]
      simp [eq_comm]
    · rw [lookup_erase_ne hne, mem_singleton]
      refine ⟨fun hk => ⟨hk, ?_⟩, And.left⟩
      rintro rfl
      exact hne (h.lookup_inj hk hid)

lemma goOn_phase (c : SchedulerCall) (todo : List ℕ) :
    (c.goOn todo).phase ∉ [.entering, .clearing, .joining, .returned] ∧
      ((c.goOn todo).phase ∈ [.inserting, .returning] → todo = []) := by
  simp only [SchedulerCall.goOn, SchedulerCall.afterwards]
  split_ifs <;> simp_all

lemma Inv.enter (h : Inv s) (hc : HasCall s i c) (hph : c.phase = .entering) :
    Inv (s.enter i c) := by
  have hold : c.old = [] := (h.call i c hc).entering hph
  have htodo : c.todo = [] := by
    have hsub := (h.call i c hc).subset
    rw [hold] at hsub
    exact subset_nil.mp hsub
  unfold PeriodicScheduler.enter
  cases hkind : c.kind with
  | start id =>
    obtain ⟨js, schedules, hstop, hnd, hjs, habs, hlk⟩ := h.stopInternal i id
    simp only [hstop]
    refine h.extract hc hph hnd (fun j hj => ⟨id, hjs j hj, by rw [hkind]; rfl⟩) hlk
      ?_ ?_ ?_ ?_ ?_ ?_ ?_
    · rintro id' hconc
      rw [hkind] at hconc
      cases hconc
      exact habs
    all_goals split_ifs <;> simp_all
  | stop id =>
    obtain ⟨js, schedules, hstop, hnd, hjs, habs, hlk⟩ := h.stopInternal i id
    simp only [hstop]
    obtain ⟨hrest, hfin⟩ := goOn_phase { c with kind := .stop id, old := js } js
    refine h.extract hc hph hnd (fun j hj => ⟨id, hjs j hj, by rw [hkind]; rfl⟩) hlk
      ?_ hkind.symm rfl rfl rfl (by simp_all) hfin
    rintro id' hconc
    rw [hkind] at hconc
    cases hconc
    exact habs
  | stopAll =>
    obtain ⟨hrest, hfin⟩ :=
      goOn_phase { c with kind := .stopAll, old := s.schedules.entries.map fun e => e.2 }
        (s.schedules.entries.map fun e => e.2)
    have hmem : ∀ e ∈ s.schedules.entries, s.schedules.lookup e.1 = some e.2 :=
      fun e he => mem_lookup_iff.mpr he
    refine h.extract hc hph ?_ ?_ ?_ ?_ hkind.symm rfl rfl rfl (by simp_all) hfin
    · refine List.Nodup.map_on (fun e he e' he' heq => ?_) s.schedules.nodupKeys.nodup
      have hid := h.lookup_inj (hmem e he) (heq ▸ hmem e' he')
      exact Sigma.ext hid (heq_of_eq heq)
    · intro j hj
      obtain ⟨e, he, rfl⟩ := List.mem_map.mp hj
      exact ⟨e.1, hmem e he, by rw [hkind]; trivial⟩
    · intro id j
      simp only [lookup_empty, reduceCtorEq, false_iff, not_and, not_not]
      exact fun hid => List.mem_map.mpr ⟨⟨id, j⟩, mem_lookup_iff.mp hid, rfl⟩
    · simp

lemma modifyInfo_id (j : ℕ) : s.modifyInfo j id = s := by
  simp [modifyInfo, modify_id]

section
variable (h : Inv s) (hc : HasCall s i c)
include h hc

lemma Inv.testing (hph : c.phase = .testing) (hj : j ∈ c.todo) :
    (∃ x, HasInfo s j x ∧ x.running = true) ∧ Inv (s.setCall i { c with phase := .clearing }) := by
  have hok := h.call i c hc
  obtain ⟨x, hx, -, hhol⟩ := h.holds hc (by rw [hph]; nofun) (hok.subset hj)
  refine ⟨⟨x, hx, ?_⟩, ?_⟩
  · by_contra hrng
    have hjoin := (hhol.running hj (by simpa using hrng)).1
    rw [hph] at hjoin
    cases hjoin
  · have hinv : Inv ((s.modifyInfo j id).setCall i { c with phase := .clearing }) := by
      refine h.work hc (by simp [hph]) (hok.subset hj) (fun _ => ⟨rfl, rfl, rfl⟩) rfl rfl rfl
        hok.nodup hok.subset (by simp) (by simp) fun k y hy hy' => ?_
      rw [id_eq, ite_self]
      refine ⟨by simp, hy'.concerns, hy'.mem, hy'.absent, hy'.notJoined, fun hk hfal => ?_,
        hy'.done⟩
      have hjoin := (hy'.running hk hfal).1
      rw [hph] at hjoin
      cases hjoin
    rwa [modifyInfo_id] at hinv

lemma Inv.clearing (hph : c.phase = .clearing) (htodo : c.todo = j :: todo) :
    Inv ((s.modifyInfo j fun x => { x with running := false }).setCall i
      { c with phase := .joining }) := by
  have hok := h.call i c hc
  have hj : j ∈ c.todo := by simp [htodo]
  refine h.work hc (by simp [hph]) (hok.subset hj) (fun _ => ⟨rfl, rfl, rfl⟩) rfl rfl rfl
    hok.nodup hok.subset (by simp) (by simp) fun k y hy hhol => ?_
  split_ifs with hjk
  · subst hjk
    exact ⟨by simp, hhol.concerns, hhol.mem, hhol.absent, hhol.notJoined,
      fun _ _ => ⟨rfl, by simp [htodo]⟩, hhol.done⟩
  · refine ⟨by simp, hhol.concerns, hhol.mem, hhol.absent, hhol.notJoined,
      fun hk hfal => ?_, hhol.done⟩
    have hjoin := (hhol.running hk hfal).1
    rw [hph] at hjoin
    cases hjoin

lemma Inv.joining (hph : c.phase = .joining) (htodo : c.todo = j :: todo)
    (hx : HasInfo s j x) (hend : x.thread = .ended) :
    Inv ((s.modifyInfo j fun x => { x with joined := true }).setCall i (c.goOn todo)) := by
  have hok := h.call i c hc
  obtain ⟨hnotMem, hnd⟩ := nodup_cons.mp (htodo ▸ hok.nodup)
  have hsub : todo ⊆ c.todo := htodo ▸ subset_cons_self j todo
  obtain ⟨hrest, hfin⟩ := goOn_phase c todo
  simp only [mem_cons, not_mem_nil, or_false, not_or] at hrest
  refine h.work hc (by simp [hph]) (hok.subset (by simp [htodo])) (fun _ => ⟨rfl, rfl, rfl⟩)
    rfl rfl rfl hnd (List.Subset.trans hsub hok.subset) (by simp [hrest]) hfin
    fun k y hy hhol => ?_
  split_ifs with hjk
  · subst hjk
    cases hx.symm.trans hy
    exact ⟨hrest.2.2.2, hhol.concerns, hhol.mem, fun hk => absurd hk hnotMem,
      fun hk => absurd hk hnotMem, fun hk => absurd hk hnotMem, fun _ => ⟨rfl, hend⟩⟩
  · refine ⟨hrest.2.2.2, hhol.concerns, hhol.mem, fun hk => hhol.absent (hsub hk),
      fun hk => hhol.notJoined (hsub hk), fun hk hfal => ?_, fun hk => hhol.done ?_⟩
    · have hhead := (hhol.running (hsub hk) hfal).2
      rw [htodo] at hhead
      exact absurd (Option.some.inj hhead) hjk
    · rw [htodo, mem_cons, not_or]
      exact ⟨Ne.symm hjk, hk⟩

lemma Inv.inserting {taskId : String} (hph : c.phase = .inserting)
    (hkind : c.kind = .start taskId) : Inv (s.insert i c taskId) := by
  have hok := h.call i c hc
  have habs : taskId ∉ s.schedules := hok.absent (by simp [hph]) taskId hkind
  have htodo : c.todo = [] := hok.finished (by simp [hph])
  have hunf : c.phase ≠ .returned := by rw [hph]; nofun
  have hinfo : ∀ {k x}, HasInfo (s.insert i c taskId) k x ↔ HasInfo s k x ∨
      k = s.infos.length ∧ x = ⟨taskId, true, .testing, false, .map⟩ := by
    intro k x
    rw [HasInfo, HasInfo, ← getElem?_concat_eq_some]
    simp [PeriodicScheduler.insert, setCall, destroy, give_nil, AList.lookup_eq_none.mpr habs]
  have hsch : (s.insert i c taskId).schedules = s.schedules.insert taskId s.infos.length := rfl
  have hch : CallChange s (s.insert i c taskId) i c { c with phase := .returning } := by
    refine ⟨rfl, rfl, rfl, fun id hid => ?_, fun k x i' _ hown => ?_, fun hstr => ?_⟩
    · rw [hsch, mem_insert] at hid
      rcases hid with rfl | hid
      · exact Or.inr hkind
      · exact Or.inl hid
    · rw [hinfo]
      refine ⟨?_, Or.inl⟩
      rintro (hx | ⟨-, rfl⟩)
      · exact hx
      · cases hown
    · rw [hkind] at hstr
      cases hstr
  refine h.of_change hc hunf hch ?_ ?_ ?_ ?_ ?_ ?_
  · intro id k hk
    rw [hsch] at hk
    rcases lookup_insert_cases hk with ⟨rfl, rfl⟩ | ⟨-, hk⟩
    · exact ⟨_, hinfo.mpr (Or.inr ⟨rfl, rfl⟩), rfl, rfl⟩
    · obtain ⟨x, hx, hx'⟩ := h.registered id k hk
      exact ⟨x, hinfo.mpr (Or.inl hx), hx'⟩
  · intro k x hx hown
    rw [hsch]
    rcases hinfo.mp hx with hx | ⟨rfl, rfl⟩
    · obtain ⟨hid, hx'⟩ := h.map k x hx hown
      refine ⟨?_, hx'⟩
      rw [lookup_insert_ne, hid]
      rintro rfl
      exact habs (lookup_isSome.mp (by rw [hid]; rfl))
    · exact ⟨lookup_insert _, rfl, rfl⟩
  · intro k x hx hown
    rcases hinfo.mp hx with hx | ⟨rfl, rfl⟩
    · have hhol := h.holds_of_owner hc hx hown
      have hk : k ∉ c.todo := by simp [htodo]
      exact ⟨by simp, hhol.concerns, hhol.mem, fun hk' => absurd hk' hk,
        fun hk' => absurd hk' hk, fun hk' => absurd hk' hk, fun _ => hhol.done hk⟩
    · cases hown
  · intro k x hx hown
    rcases hinfo.mp hx with hx | ⟨rfl, rfl⟩
    · exact h.gone k x hx hown
    · cases hown
  · refine ⟨fun _ k hk => ?_, hok.nodup, hok.subset, by simp, fun _ => htodo, by simp⟩
    obtain ⟨x, hx, hown⟩ := hok.old hunf k hk
    exact ⟨x, hinfo.mpr (Or.inl hx), hown⟩
  · intro hall
    rw [hkind] at hall
    cases hall

lemma Inv.ended_of_stopAll (hph : c.phase = .returning) (hkind : c.kind = .stopAll)
    (hstp : StopsAll s c) (hx : HasInfo s j x) : x.thread = .ended := by
  cases hown : x.owner with
  | map =>
    have hid := (h.map j x hx hown).1
    refine absurd (lookup_isSome.mp ?_) (hstp.empty (by rw [hph]; nofun) x.taskId)
    rw [hid]
    rfl
  | call i' =>
    obtain ⟨d, hd, hhol⟩ := h.held j x i' hx hown
    by_cases hi : i' = i
    · subst hi
      cases hc.symm.trans hd
      refine (hhol.done ?_).2
      rw [(h.call i' c hc).finished (by simp [hph])]
      exact not_mem_nil
    · refine absurd ?_ (h.apart i i' c d hc hd (Ne.symm hi) (by rw [hph]; nofun) hhol.unfinished)
      rw [hkind]
      trivial
  | gone => exact (h.gone j x hx hown).2

lemma Inv.returning (hph : c.phase = .returning) :
    Inv ((s.destroy c.old).setCall i { c with phase := .returned }) := by
  have hok := h.call i c hc
  have htodo : c.todo = [] := hok.finished (by simp [hph])
  have hunf : c.phase ≠ .returned := by rw [hph]; nofun
  have hinfo : ∀ {k x}, HasInfo ((s.destroy c.old).setCall i { c with phase := .returned }) k x ↔
      ∃ y, HasInfo s k y ∧ x = if k ∈ c.old then { y with owner := .gone } else y := hasInfo_give
  have hnotOld : ∀ k y, HasInfo s k y → y.owner ≠ .call i → k ∉ c.old := by
    intro k y hy hown hk
    obtain ⟨z, hz, hzow, -⟩ := h.holds hc hunf hk
    cases hz.symm.trans hy
    exact hown hzow
  have hkept : ∀ {k x}, x.owner ≠ .gone → x.owner ≠ .call i →
      (HasInfo ((s.destroy c.old).setCall i { c with phase := .returned }) k x ↔
        HasInfo s k x) := by
    intro k x hgone hcall
    rw [hinfo]
    constructor
    · rintro ⟨y, hy, rfl⟩
      split_ifs at hgone ⊢ with hk
      · exact absurd rfl hgone
      · exact hy
    · intro hx
      exact ⟨x, hx, by rw [if_neg (hnotOld k x hx hcall)]⟩
  refine h.of_change hc hunf ⟨rfl, rfl, rfl, fun id hid => Or.inl hid,
    fun k x i' hi hown => ?_, fun _ k x hx => ?_⟩ ?_ ?_ ?_ ?_ ?_ ?_
  · refine hkept (by rw [hown]; nofun) ?_
    rw [hown]
    exact fun heq => hi (Owner.call.inj heq)
  · obtain ⟨y, hy, rfl⟩ := hinfo.mp hx
    exact ⟨y, hy, by split_ifs <;> rfl⟩
  · intro id k hk
    obtain ⟨x, hx, htask, hown⟩ := h.registered id k hk
    exact ⟨x, (hkept (by rw [hown]; nofun) (by rw [hown]; nofun)).mpr hx, htask, hown⟩
  · intro k x hx hown
    exact h.map k x ((hkept (by rw [hown]; nofun) (by rw [hown]; nofun)).mp hx) hown
  · intro k x hx hown
    obtain ⟨y, hy, rfl⟩ := hinfo.mp hx
    split_ifs at hown with hk
    exact absurd (h.holds_of_owner hc hy hown).mem hk
  · intro k x hx hown
    obtain ⟨y, hy, rfl⟩ := hinfo.mp hx
    split_ifs at hown ⊢ with hk
    · obtain ⟨z, hz, -, hhol⟩ := h.holds hc hunf hk
      cases hz.symm.trans hy
      exact hhol.done (by simp [htodo])
    · exact h.gone k y hy hown
  · exact ⟨by simp, hok.nodup, hok.subset, by simp, by simp, by simp⟩
  · intro hkind hstp
    refine ⟨fun _ => hstp.empty (by rw [hph]; nofun), fun _ k x hx => ?_⟩
    obtain ⟨y, hy, rfl⟩ := hinfo.mp hx
    have hend := h.ended_of_stopAll hc hph hkind hstp hy
    split_ifs <;> exact hend

lemma Inv.callStep (hn : s.callStep i c = some s') : Inv s' := by
  unfold PeriodicScheduler.callStep at hn
  split at hn
  · rename_i hph
    cases hn
    exact h.enter hc hph
  · rename_i j todo hph htodo
    obtain ⟨⟨x, hx, hrng⟩, hinv⟩ := h.testing (j := j) hc hph (by simp [htodo])
    rw [show s.infos[j]? = some x from hx] at hn
    simp only [map_some, hrng, if_true, Option.some.injEq] at hn
    exact hn ▸ hinv
  · rename_i j todo hph htodo
    cases hn
    exact h.clearing hc hph htodo
  · rename_i j todo hph htodo
    obtain ⟨x, hx, hn⟩ := bind_eq_some_iff.mp hn
    split_ifs at hn with hend
    cases hn
    exact h.joining hc hph htodo hx hend
  · rename_i hph
    split at hn
    · rename_i taskId hkind
      cases hn
      exact h.inserting hc hph hkind
    · cases hn
  · rename_i hph
    cases hn
    exact h.returning hc hph
  · cases hn

end

lemma Inv.thread (h : Inv s) {f : ScheduleInfo → SchedulePhase} (hx : HasInfo s j x)
    (hlive : x.thread ≠ .ended) : Inv (s.modifyInfo j fun x => { x with thread := f x }) := by
  have hinfo : ∀ {k x'}, HasInfo (s.modifyInfo j fun x => { x with thread := f x }) k x' →
      ∃ y, HasInfo s k y ∧ x' = { y with thread := x'.thread } ∧
        (y.thread = .ended → x'.thread = .ended) := by
    intro k x' hx'
    obtain ⟨y, hy, rfl⟩ := hasInfo_modifyInfo.mp hx'
    refine ⟨y, hy, by split_ifs <;> rfl, fun hend => ?_⟩
    split_ifs with hk
    · subst hk
      cases hx.symm.trans hy
      exact absurd hend hlive
    · exact hend
  have hkept : ∀ {k y}, HasInfo s k y →
      ∃ t, HasInfo (s.modifyInfo j fun x => { x with thread := f x }) k { y with thread := t } := by
    intro k y hy
    refine ⟨if j = k then f y else y.thread, hasInfo_modifyInfo.mpr ⟨y, hy, ?_⟩⟩
    split_ifs <;> rfl
  refine ⟨fun id k hk => ?_, fun k x' hx' hown => ?_, fun k x' i' hx' hown => ?_,
    fun k x' hx' hown => ?_, fun i' d hd => ?_, h.apart, fun i' d hd hkind hund => ?_⟩
  · obtain ⟨y, hy, hy'⟩ := h.registered id k hk
    obtain ⟨t, ht⟩ := hkept hy
    exact ⟨_, ht, hy'⟩
  · obtain ⟨y, hy, hxy, -⟩ := hinfo hx'
    rw [hxy] at hown ⊢
    exact h.map k y hy hown
  · obtain ⟨y, hy, hxy, hend⟩ := hinfo hx'
    rw [hxy] at hown
    obtain ⟨d, hd, hhol⟩ := h.held k y i' hy hown
    refine ⟨d, hd, ?_⟩
    rw [hxy]
    exact ⟨hhol.unfinished, hhol.concerns, hhol.mem, hhol.absent, hhol.notJoined,
      hhol.running, fun hk => ⟨(hhol.done hk).1, hend (hhol.done hk).2⟩⟩
  · obtain ⟨y, hy, hxy, hend⟩ := hinfo hx'
    rw [hxy] at hown
    obtain ⟨hjnd, hthr⟩ := h.gone k y hy hown
    refine ⟨?_, hend hthr⟩
    rw [hxy]
    exact hjnd
  · refine { h.call i' d hd with old := fun hunf k hk => ?_ }
    obtain ⟨y, hy, hown⟩ := (h.call i' d hd).old hunf k hk
    obtain ⟨t, ht⟩ := hkept hy
    exact ⟨_, ht, hown⟩
  · have hstp := h.stopsAll i' d hd hkind hund
    refine { hstp with ended := fun hret k x' hx' => ?_ }
    obtain ⟨y, hy, -, hend⟩ := hinfo hx'
    exact hend (hstp.ended hret k y hy)

lemma Inv.threadStep (h : Inv s) (hn : s.threadStep j = some s') : Inv s' := by
  obtain ⟨x, hx, hn⟩ := bind_eq_some_iff.mp hn
  cases hthr : x.thread <;> simp only [hthr] at hn <;> cases hn <;>
    exact h.thread hx (by rw [hthr]; nofun)

lemma hasCall_begin {d : SchedulerCall} (hd : HasCall (s.begin kind) i d) :
    (∃ c, HasCall s i c ∧ d = { c with undisturbed := d.undisturbed } ∧
      (d.undisturbed = true → d = c ∧ kind.isStart = false)) ∨
    i = s.calls.length ∧
      d = ⟨kind, .entering, [], [], !kind.isStart && s.calls.all fun c => !c.unfinishedStart⟩ := by
  rcases getElem?_concat_eq_some.mp hd with hd | ⟨hi, rfl⟩
  · refine Or.inl ?_
    split_ifs at hd with hstr
    · rw [getElem?_map, map_eq_some_iff] at hd
      obtain ⟨c, hc, rfl⟩ := hd
      exact ⟨c, hc, rfl, by simp⟩
    · exact ⟨d, hd, rfl, fun _ => ⟨rfl, by simpa using hstr⟩⟩
  · refine Or.inr ⟨?_, rfl⟩
    split_ifs at hi <;> simpa using hi

lemma hasCall_begin_of (kind : CallKind) (hc : HasCall s i c) :
    ∃ u, HasCall (s.begin kind) i { c with undisturbed := u } := by
  refine ⟨!kind.isStart && c.undisturbed, getElem?_concat_eq_some.mpr (Or.inl ?_)⟩
  split_ifs with hstr
  · rw [getElem?_map, hc]
    simp [hstr]
  · simp [hc, hstr]

lemma Inv.begin (h : Inv s)
    (hconf : ∀ i c, HasCall s i c → c.phase ≠ .returned → ¬ CallKind.Conflicts c.kind kind) :
    Inv (s.begin kind) := by
  refine ⟨h.registered, h.map, fun j x i hx hown => ?_, h.gone, fun i d hd => ?_,
    fun i i' d d' hd hd' hne hph hph' => ?_, fun i d hd hkind hund => ?_⟩
  · obtain ⟨c, hc, hhol⟩ := h.held j x i hx hown
    obtain ⟨u, hu⟩ := hasCall_begin_of kind hc
    exact ⟨_, hu, hhol.unfinished, hhol.concerns, hhol.mem, hhol.absent, hhol.notJoined,
      hhol.running, hhol.done⟩
  · rcases hasCall_begin hd with ⟨c, hc, hdc, -⟩ | ⟨-, rfl⟩
    · have hok := h.call i c hc
      rw [hdc]
      exact ⟨hok.old, hok.nodup, hok.subset, hok.entering, hok.finished, hok.absent⟩
    · exact ⟨by simp, by simp, by simp, by simp, by simp, by simp⟩
  · rcases hasCall_begin hd with ⟨c, hc, hdc, -⟩ | ⟨hi, rfl⟩ <;>
      rcases hasCall_begin hd' with ⟨c', hc', hdc', -⟩ | ⟨hi', rfl⟩
    · rw [hdc] at hph ⊢
      rw [hdc'] at hph' ⊢
      exact h.apart i i' c c' hc hc' hne hph hph'
    · rw [hdc] at hph ⊢
      exact hconf i c hc hph
    · rw [hdc'] at hph' ⊢
      exact fun hcon => hconf i' c' hc' hph' hcon.symm
    · exact absurd (hi.trans hi'.symm) hne
  · -- no `start` begins here, and none is in progress
    have hnoStart : kind.isStart = false → (∀ i c, HasCall s i c → c.unfinishedStart = false) →
        ∀ i c, HasCall (s.begin kind) i c → c.unfinishedStart = false := by
      intro hstr hall k e he
      rcases hasCall_begin he with ⟨c, hc, hec, -⟩ | ⟨-, rfl⟩
      · rw [hec]
        exact hall k c hc
      · simp [SchedulerCall.unfinishedStart, hstr]
    rcases hasCall_begin hd with ⟨c, hc, -, hsame⟩ | ⟨-, rfl⟩
    · obtain ⟨rfl, hstr⟩ := hsame hund
      have hstp := h.stopsAll i d hc hkind hund
      exact ⟨hnoStart hstr hstp.noStart, hstp.empty, hstp.ended⟩
    · simp only [Bool.and_eq_true, Bool.not_eq_true', List.all_eq_true] at hund
      refine ⟨hnoStart hund.1 fun k e he => ?_, by simp, by simp⟩
      exact hund.2 e (mem_of_getElem? he)

lemma Inv.next {l : SchedulerStep} (h : Inv s) (hl : NoConflict s l) (hn : next s l = some s') :
    Inv s' := by
  unfold PeriodicScheduler.next at hn
  split_ifs at hn
  cases l with
  | call kind =>
    cases hn
    exact h.begin (hl kind rfl)
  | step i =>
    obtain ⟨c, hc, hn⟩ := bind_eq_some_iff.mp hn
    exact h.callStep hc hn
  | thread j => exact h.threadStep hn

end

lemma inv_init : Inv init :=
  ⟨by simp [init], by simp [init], by simp [init], by simp [init], by simp [init], by simp [init],
    by simp [init]⟩

end PeriodicScheduler
end Mxrc.Task
