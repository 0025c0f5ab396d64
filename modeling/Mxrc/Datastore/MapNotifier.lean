import Mxrc.Datastore.DataStore

/-!
# Notification of observers

A `MapNotifier` has weak pointers to the observers of one key. `notify` calls
those that are alive and erases the others; an exception of a callback leaves
the loop. Which observers are alive and what they do is fixed during a write.
-/

namespace Mxrc.Datastore
open List

/-- The observers that the weak pointers refer to; an exception is its text. -/
structure Observers (ω : Type) where
  alive : ω → Bool
  onDataChanged : ω → SharedData → Except String Unit

structure Notification (ω : Type) where
  called : List ω
  subscribers : List ω
  exception : Option String
deriving DecidableEq

section
variable {ω : Type} (o : Observers ω) (changedData : SharedData)

def notify : List ω → Notification ω
  | [] => ⟨[], [], none⟩
  | observer :: rest =>
    if o.alive observer then
      match o.onDataChanged observer changedData with
      | .ok _ =>
        let done := notify rest
        ⟨observer :: done.called, observer :: done.subscribers, done.exception⟩
      | .error what => ⟨[observer], observer :: rest, some what⟩
    else notify rest

def Throws (observer : ω) : Prop :=
  o.alive observer = true ∧ (o.onDataChanged observer changedData).isOk = false

def NothingBehindThrow (subscribers : List ω) : Prop :=
  ∀ before observer after, subscribers = before ++ observer :: after →
    Throws o changedData observer → after = []

variable {o changedData} {subscribers : List ω}

lemma notify_cases (o : Observers ω) (changedData : SharedData) (subscribers : List ω) :
    ((∀ observer ∈ subscribers, ¬Throws o changedData observer) ∧
      notify o changedData subscribers =
        ⟨subscribers.filter o.alive, subscribers.filter o.alive, none⟩) ∨
    ∃ before observer after what, subscribers = before ++ observer :: after ∧
      (∀ earlier ∈ before, ¬Throws o changedData earlier) ∧ Throws o changedData observer ∧
      notify o changedData subscribers = ⟨before.filter o.alive ++ [observer],
        before.filter o.alive ++ observer :: after, some what⟩ := by
  induction subscribers with
  | nil => exact .inl ⟨by simp, rfl⟩
  | cons first rest ih =>
    by_cases halive : o.alive first = true
    · cases hcall : o.onDataChanged first changedData with
      | error what =>
        refine .inr ⟨[], first, rest, what, rfl, by simp, ⟨halive, by rw [hcall]; rfl⟩, ?_⟩
        simp [notify, halive, hcall]
      | ok _ =>
        have hfir : ¬Throws o changedData first := by
          rintro ⟨-, hfls⟩
          rw [hcall] at hfls
          cases hfls
        rcases ih with ⟨hrest, heq⟩ | ⟨before, observer, after, what, rfl, hbef, hthr, heq⟩
        · refine .inl ⟨forall_mem_cons.mpr ⟨hfir, hrest⟩, ?_⟩
          simp [notify, halive, hcall, heq]
        · refine .inr ⟨first :: before, observer, after, what, rfl,
            forall_mem_cons.mpr ⟨hfir, hbef⟩, hthr, ?_⟩
          simp [notify, halive, hcall, heq]
    · have hfir : ¬Throws o changedData first := fun h => halive h.1
      rcases ih with ⟨hrest, heq⟩ | ⟨before, observer, after, what, rfl, hbef, hthr, heq⟩
      · refine .inl ⟨forall_mem_cons.mpr ⟨hfir, hrest⟩, ?_⟩
        simp [notify, halive, heq]
      · refine .inr ⟨first :: before, observer, after, what, rfl,
          forall_mem_cons.mpr ⟨hfir, hbef⟩, hthr, ?_⟩
        simp [notify, halive, heq]

lemma nothingBehindThrow_of_forall
    (h : ∀ observer ∈ subscribers, ¬Throws o changedData observer) :
    NothingBehindThrow o changedData subscribers := by
  rintro before observer after rfl hthr
  exact absurd hthr (h observer (by simp))

lemma nothingBehindThrow_iff {before after : List ω} {observer : ω}
    (hbef : ∀ earlier ∈ before, ¬Throws o changedData earlier)
    (hthr : Throws o changedData observer) :
    NothingBehindThrow o changedData (before ++ observer :: after) ↔ after = [] := by
  refine ⟨fun h => h before observer after rfl hthr, ?_⟩
  rintro rfl before' observer' after' hspl hthr'
  rcases eq_nil_or_concat after' with hnil | ⟨after', last, rfl⟩
  · exact hnil
  · -- the observer would stand before the first one that throws
    rw [List.concat_eq_append, ← cons_append, ← append_assoc] at hspl
    obtain ⟨hspl, -⟩ := append_inj' hspl rfl
    exact absurd hthr' (hbef observer' (hspl ▸ by simp))

end

structure ObservedStore (ω : Type) where
  store : DataStore := {}
  notifiers : AList (fun _ : String => List ω) := ∅

namespace ObservedStore
variable {ω : Type} (o : Observers ω) (s : ObservedStore ω)

def subscribers (id : String) : List ω := (s.notifiers.lookup id).getD []

def notifySubscribers (changedData : SharedData) : List ω × ObservedStore ω :=
  match s.notifiers.lookup changedData.id with
  | none => ([], s)
  | some subscribers =>
    let done := notify o changedData subscribers
    (done.called, { s with notifiers := s.notifiers.insert changedData.id done.subscribers })

def write (w : StoreWrite) : Except String (List ω × ObservedStore ω) :=
  match s.store.write w with
  | .error what => .error what
  | .ok store => .ok (notifySubscribers o { s with store } w.newData)

variable {o s} {s' : ObservedStore ω} {w : StoreWrite} {called : List ω}

lemma write_eq_ok (h : s.write o w = .ok (called, s')) :
    called = (notify o w.newData (s.subscribers w.id)).called ∧
      s'.subscribers w.id = (notify o w.newData (s.subscribers w.id)).subscribers := by
  unfold write at h
  split at h
  · cases h
  · rename_i store hstr
    unfold notifySubscribers at h
    rw [subscribers, subscribers]
    split at h
    · rename_i hlk
      cases h
      rw [StoreWrite.id, hlk]
      exact ⟨rfl, rfl⟩
    · rename_i subscribers hlk
      cases h
      have hbef : s.notifiers.lookup w.id = some subscribers := hlk
      rw [hbef, StoreWrite.id, AList.lookup_insert]
      exact ⟨rfl, rfl⟩

/-- Every live observer of the key is called once for each subscription; the destroyed ones are
removed without a call. -/
def NotifiesLive [DecidableEq ω] (o : Observers ω) (s s' : ObservedStore ω) (id : String)
    (called : List ω) : Prop :=
  (∀ observer, called.count observer =
    if o.alive observer then (s.subscribers id).count observer else 0) ∧
  s'.subscribers id = (s.subscribers id).filter o.alive

lemma count_filter_alive [DecidableEq ω] (o : Observers ω) (subscribers : List ω) (observer : ω) :
    (subscribers.filter o.alive).count observer =
      if o.alive observer then subscribers.count observer else 0 := by
  split_ifs with halive
  · exact count_filter halive
  · exact count_eq_zero.mpr fun hmem => halive (of_mem_filter hmem)

lemma eq_nil_of_notified [DecidableEq ω] {before after : List ω} {observer : ω}
    (hcal : ∀ other, (before.filter o.alive ++ [observer]).count other =
      if o.alive other then (before ++ observer :: after).count other else 0)
    (hkept : before.filter o.alive ++ observer :: after =
      before.filter o.alive ++ observer :: after.filter o.alive) : after = [] := by
  have haft := (List.cons.inj (append_cancel_left hkept)).2
  refine eq_nil_iff_forall_not_mem.mpr fun other hoth => ?_
  have halive : o.alive other = true := filter_eq_self.mp haft.symm other hoth
  have hcll := hcal other
  rw [if_pos halive, count_append, count_append, count_filter halive,
    count_cons, count_cons, count_nil] at hcll
  have hpos := List.count_pos_iff.mpr hoth
  omega

theorem notifiesLive_iff [DecidableEq ω] (o : Observers ω) (s s' : ObservedStore ω) (w : StoreWrite)
    (called : List ω) (h : s.write o w = .ok (called, s')) :
    NotifiesLive o s s' w.id called ↔ NothingBehindThrow o w.newData (s.subscribers w.id) := by
  obtain ⟨rfl, hsub⟩ := write_eq_ok h
  rw [NotifiesLive, hsub]
  obtain ⟨hnone, heq⟩ | ⟨before, observer, after, what, hspl, hbef, hthr, heq⟩ :=
    notify_cases o w.newData (s.subscribers w.id)
  · rw [heq]
    exact iff_of_true ⟨count_filter_alive o _, rfl⟩ (nothingBehindThrow_of_forall hnone)
  · rw [heq, hspl, nothingBehindThrow_iff hbef hthr, filter_append, filter_cons_of_pos hthr.1]
    constructor
    · rintro ⟨hcal, hkept⟩
      exact eq_nil_of_notified hcal hkept
    · rintro rfl
      refine ⟨fun other => ?_, rfl⟩
      have hlast : before.filter o.alive ++ [observer] = (before ++ [observer]).filter o.alive := by
        rw [filter_append, filter_cons_of_pos hthr.1]
        rfl
      dsimp only
      rw [hlast, count_filter_alive]

theorem notifiesLive_iff_twice :
    let o : Observers ℕ := ⟨fun observer => observer ≠ 0, fun _ _ => .ok ()⟩
    let s : ObservedStore ℕ := { notifiers := AList.insert "mode" [1, 0, 1] ∅ }
    let w : StoreWrite := .set "mode" (.int 3) .robotMode ⟨.none, 0⟩ 0
    ∃ called s', s.write o w = .ok (called, s') ∧
      (NotifiesLive o s s' w.id called ↔
        NothingBehindThrow o w.newData (s.subscribers w.id)) :=
  ⟨_, _, rfl, notifiesLive_iff _ _ _ _ _ rfl⟩

/-- The first of two live observers throws, and the second one is not called. -/
theorem not_notifiesLive : ¬ ∀ (ω : Type) (_ : DecidableEq ω) (o : Observers ω)
    (s s' : ObservedStore ω) (w : StoreWrite) (called : List ω),
    s.write o w = .ok (called, s') → NotifiesLive o s s' w.id called := by
  intro hall
  let o : Observers ℕ := ⟨fun _ => true, fun observer _ =>
    if observer = 0 then .error "bad_alloc" else .ok ()⟩
  let s : ObservedStore ℕ := { notifiers := AList.insert "mode" [0, 1] ∅ }
  let w : StoreWrite := .set "mode" (.int 3) .robotMode ⟨.none, 0⟩ 0
  have hwr : s.write o w = .ok ([0], _) := rfl
  obtain ⟨hcal, -⟩ := hall ℕ inferInstance o s _ w [0] hwr
  have hsec := hcal 1
  exact absurd hsec (by decide)

end ObservedStore
end Mxrc.Datastore
