import Mxrc.Lib.Json
import Mxrc.Webapi.IPCClient

/-!
# Messages and the chunks of the socket

The server sends messages with a newline after each, and the socket cuts the
bytes in any way. The client takes each chunk for a message, so a chunk with two
messages, or with a part of one, is a parse error.
-/

namespace Mxrc.Webapi
open Mxrc.Lib List Option

structure ServerMessage {J : Type} (lib : ResponseLib J) where
  text : List UInt8
  value : J
  isObject : lib.isObject value = true
  parse_text : ∀ m n, lib.parse (List.replicate m 10 ++ text ++ List.replicate n 10) = some value
  exists_ne_newline : ∃ b ∈ text, b ≠ 10

section
variable {J : Type} (lib : ResponseLib J)

def stream (messages : List (ServerMessage lib)) : List UInt8 :=
  messages.flatMap fun m => m.text ++ [10]

def chunks {α : Type} (ls : List (IPCStep α)) : List α :=
  ls.filterMap fun
    | .data chunk => some chunk
    | _ => none

def sends {α : Type} (ls : List (IPCStep α)) : ℕ :=
  ls.countP fun
    | .send => true
    | _ => false

/-- At most one response to each pending request, no byte of it before the request was sent, and the
request is not given up. -/
structure Answers (ls : List (IPCStep (List UInt8))) (messages : List (ServerMessage lib)) :
    Prop where
  once : (messages.filterMap fun m => lib.requestId m.value).Nodup
  sent : ∀ before m after k, messages = before ++ m :: after → lib.requestId m.value = some k →
    ∃ ls₁ ls₂, ls = ls₁ ++ .send :: ls₂ ∧ sends ls₁ + 1 = k ∧
      (chunks ls₁).flatten <+: stream lib before
  kept : ∀ m ∈ messages, ∀ k, lib.requestId m.value = some k →
    .timeout k ∉ ls ∧ ∀ error, .writeError k error ∉ ls

/-- Each response has settled its request once, and the notifications were emitted in order. -/
structure Delivered (s : IPCClient J) (messages : List (ServerMessage lib)) : Prop where
  settled : ∀ m ∈ messages, ∀ k, lib.requestId m.value = some k →
    s.settlements k = [lib.outcome m.value]
  notified : s.notifications =
    (messages.filter fun m => lib.isNotification m.value).map fun m => lib.data m.value

def SurvivesChunking
    (G : List (IPCStep (List UInt8)) → List (ServerMessage lib) → Prop)
    (ls : List (IPCStep (List UInt8))) (messages : List (ServerMessage lib)) : Prop :=
  (chunks ls).flatten = stream lib messages → Answers lib ls messages → G ls messages →
    ∀ s, Run (IPCClient.next lib) (fun _ _ => True) IPCClient.init ls s → Delivered lib s messages

structure Frame where
  before : ℕ
  message : Option (ServerMessage lib)
  after : ℕ

def Frame.bytes (f : Frame lib) : List UInt8 :=
  List.replicate f.before 10 ++ (f.message.elim [] ServerMessage.text) ++ List.replicate f.after 10

def messagesIn (ls : List (IPCStep (Frame lib))) : List (ServerMessage lib) :=
  (chunks ls).filterMap Frame.message

def Framed (ls : List (IPCStep (List UInt8))) (messages : List (ServerMessage lib)) : Prop :=
  ∃ fs : List (IPCStep (Frame lib)), ls = fs.map (.map (Frame.bytes lib)) ∧
    messages = messagesIn lib fs

end

section
variable {J : Type} (lib : ResponseLib J)

def handleFrame (s : IPCClient J) (f : Frame lib) : IPCClient J :=
  match f.message with
  | none => s.parseError
  | some m => s.handleMessage lib m.value

lemma handleData_bytes (s : IPCClient J) (f : Frame lib) :
    s.handleData lib (f.bytes lib) = handleFrame lib s f := by
  rw [IPCClient.handleData, handleFrame, Frame.bytes]
  cases f.message with
  | none =>
    simp only [elim_none, append_nil, replicate_append_replicate]
    rw [lib.parse_newlines]
  | some m =>
    rw [elim_some, m.parse_text]

lemma next_map_bytes (s : IPCClient J) (l : IPCStep (Frame lib)) :
    IPCClient.next lib s (l.map (Frame.bytes lib)) =
      IPCClient.nextWith (handleFrame lib) s l := by
  cases l with
  | data f => simp [IPCClient.next, IPCClient.nextWith, IPCStep.map, handleData_bytes]
  | _ => rfl

section
variable {α β : Type}

lemma chunks_append (ls ls' : List (IPCStep α)) : chunks (ls ++ ls') = chunks ls ++ chunks ls' :=
  filterMap_append

lemma sends_append (ls ls' : List (IPCStep α)) : sends (ls ++ ls') = sends ls + sends ls' :=
  countP_append

lemma chunks_map (f : α → β) (ls : List (IPCStep α)) :
    chunks (ls.map (.map f)) = (chunks ls).map f := by
  induction ls with
  | nil => rfl
  | cons l ls ih => cases l <;> simpa [chunks, IPCStep.map] using ih

lemma sends_map (f : α → β) (ls : List (IPCStep α)) : sends (ls.map (.map f)) = sends ls := by
  induction ls with
  | nil => rfl
  | cons l ls ih => cases l <;> simpa [sends, IPCStep.map] using ih

end

def ink (bs : List UInt8) : ℕ := bs.countP (· ≠ 10)

lemma ink_append (bs bs' : List UInt8) : ink (bs ++ bs') = ink bs + ink bs' :=
  countP_append

lemma ink_replicate (n : ℕ) : ink (List.replicate n 10) = 0 := by
  simp [ink, countP_replicate]

lemma ink_bytes (f : Frame lib) :
    ink (f.bytes lib) = ink (f.message.elim [] ServerMessage.text) := by
  rw [Frame.bytes, ink_append, ink_append, ink_replicate, ink_replicate]
  omega

lemma ServerMessage.ink_pos {lib : ResponseLib J} (m : ServerMessage lib) : 0 < ink m.text := by
  obtain ⟨b, hb, hne⟩ := m.exists_ne_newline
  exact countP_pos_iff.mpr ⟨b, hb, by simpa using hne⟩

lemma ink_stream (fs : List (IPCStep (Frame lib))) :
    ink (stream lib (messagesIn lib fs)) =
      ink (chunks (fs.map (.map (Frame.bytes lib)))).flatten := by
  rw [chunks_map, messagesIn]
  induction chunks fs with
  | nil => rfl
  | cons f fs ih =>
    rw [map_cons, flatten_cons, ink_append, ink_bytes, ← ih]
    cases hm : f.message with
    | none => simp [hm, ink]
    | some m => simp [hm, stream, ink]

lemma Answers.sent_before {fs fs₁ fs₂ : List (IPCStep (Frame lib))} {f : Frame lib}
    {m : ServerMessage lib} {k : ℕ}
    (h : Answers lib (fs.map (.map (Frame.bytes lib))) (messagesIn lib fs))
    (hfs : fs = fs₁ ++ .data f :: fs₂) (hm : f.message = some m)
    (hk : lib.requestId m.value = some k) : 1 ≤ k ∧ k ≤ sends fs₁ := by
  have hmes : messagesIn lib fs = messagesIn lib fs₁ ++ m :: messagesIn lib fs₂ := by
    simp [hfs, messagesIn, chunks, hm]
  obtain ⟨ls₁, ls₂, hls, hsen, hpref⟩ := h.sent _ m _ k hmes hk
  refine ⟨by omega, ?_⟩
  rw [hfs, map_append, map_cons, append_eq_append_iff] at hls
  rcases hls with ⟨as, has, hrest⟩ | ⟨as, has, hrest⟩
  · cases as with
    | nil => cases (List.cons.inj hrest).1
    | cons a as =>
      -- the chunk would have arrived before the request was sent, with more than the stream had
      exfalso
      rw [← (List.cons.inj hrest).1] at has
      have hink := ink_stream lib fs₁
      have hle : ink (chunks ls₁).flatten ≤ ink (stream lib (messagesIn lib fs₁)) :=
        hpref.sublist.countP_le
      rw [has, chunks_append, flatten_append, ink_append, ← hink] at hle
      have hchn : chunks (IPCStep.map (Frame.bytes lib) (.data f) :: as) =
          f.bytes lib :: chunks as := rfl
      rw [hchn, flatten_cons, ink_append, ink_bytes, hm, elim_some] at hle
      have hpos := m.ink_pos
      omega
  · cases as with
    | nil => cases (List.cons.inj hrest).1
    | cons a as =>
      rw [← (List.cons.inj hrest).1] at has
      have hcnt := congrArg sends has
      rw [sends_map, sends_append] at hcnt
      have hone : 1 ≤ sends (IPCStep.send :: as : List (IPCStep (List UInt8))) := by
        simp [sends]
      omega

end

section
variable {J : Type} {lib : ResponseLib J} {s s' : IPCClient J} {k j : ℕ} {o : Outcome J}

namespace IPCClient

lemma settlements_settle_of_ne (h : j ≠ k) : (s.settle j o).settlements k = s.settlements k := by
  rw [settle]
  split_ifs
  · simp [settlements, h]
  · rfl

lemma settlements_settle_of_mem (h : k ∈ s.pendingRequests) :
    (s.settle k o).settlements k = s.settlements k ++ [o] := by
  rw [settle, if_pos h]
  simp [settlements]

lemma notifications_settle (j : ℕ) (o : Outcome J) :
    (s.settle j o).notifications = s.notifications := by
  rw [settle]
  split_ifs <;> rfl

lemma settlements_notify (v : J) : (s.notify lib v).settlements k = s.settlements k := by
  rw [notify]
  split_ifs <;> rfl

structure Inv (n : ℕ) (s : IPCClient J) : Prop where
  counter : s.requestIdCounter = n
  nodup : s.pendingRequests.Nodup
  pending : ∀ k, k ∈ s.pendingRequests ↔ 1 ≤ k ∧ k ≤ n ∧ s.settlements k = []
  unsent : ∀ k, n < k → s.settlements k = []

variable {n : ℕ}

lemma Inv.settle (h : Inv n s) (j : ℕ) (o : Outcome J) : Inv n (s.settle j o) := by
  by_cases hj : j ∈ s.pendingRequests
  · have hfiel : (s.settle j o).requestIdCounter = s.requestIdCounter ∧
        (s.settle j o).pendingRequests = s.pendingRequests.erase j := by
      simp [IPCClient.settle, hj]
    refine ⟨hfiel.1.trans h.counter, hfiel.2 ▸ h.nodup.erase j, fun k => ?_, fun k hk => ?_⟩
    · rw [hfiel.2, h.nodup.mem_erase_iff, h.pending]
      by_cases hk : k = j
      · rw [hk, settlements_settle_of_mem hj]
        simp
      · rw [settlements_settle_of_ne (Ne.symm hk)]
        simp [hk]
    · have hle := ((h.pending j).mp hj).2.1
      rw [settlements_settle_of_ne (by omega), h.unsent k hk]
  · rwa [IPCClient.settle, if_neg hj]

lemma Inv.of_eq (h : Inv n s) (hcoun : s'.requestIdCounter = s.requestIdCounter)
    (hpend : s'.pendingRequests = s.pendingRequests) (hsett : s'.settled = s.settled) :
    Inv n s' := by
  have hset : ∀ k, s'.settlements k = s.settlements k := fun k => by
    rw [settlements, hsett, settlements]
  refine ⟨hcoun.trans h.counter, hpend ▸ h.nodup, fun k => ?_, fun k hk => ?_⟩
  · rw [hpend, hset, h.pending]
  · rw [hset, h.unsent k hk]

lemma Inv.send (h : Inv n s) : Inv (n + 1) s.send := by
  have hfiel : s.send.requestIdCounter = n + 1 ∧
      s.send.pendingRequests = s.pendingRequests ++ [n + 1] := by
    simp [IPCClient.send, h.counter]
  have hset : ∀ k, s.send.settlements k = s.settlements k := fun _ => rfl
  have hnew : n + 1 ∉ s.pendingRequests := fun hmem => by
    have hle := ((h.pending _).mp hmem).2.1
    omega
  refine ⟨hfiel.1, ?_, fun k => ?_, fun k hk => h.unsent k (by omega)⟩
  · rw [hfiel.2, nodup_append]
    refine ⟨h.nodup, nodup_singleton _, fun a ha b hb hab => ?_⟩
    rw [hab, mem_singleton.mp hb] at ha
    exact hnew ha
  · rw [hfiel.2, mem_append, mem_singleton, hset, h.pending]
    constructor
    · rintro (⟨hpos, hle, hs⟩ | rfl)
      · exact ⟨hpos, by omega, hs⟩
      · exact ⟨by omega, le_rfl, h.unsent _ (by omega)⟩
    · rintro ⟨hpos, hle, hs⟩
      by_cases hk : k = n + 1
      · exact Or.inr hk
      · exact Or.inl ⟨hpos, by omega, hs⟩

lemma settlements_handleMessage (v : J) (hv : lib.isObject v = true) :
    (s.handleMessage lib v).settlements k =
      if lib.requestId v = some k then (s.settle k (lib.outcome v)).settlements k
      else s.settlements k := by
  rw [handleMessage, hv]
  simp only [Bool.not_true, Bool.false_eq_true, if_false, settlements_notify]
  cases hid : lib.requestId v with
  | none => simp
  | some j =>
    by_cases hj : j = k
    · simp [hj]
    · simp [hj, settlements_settle_of_ne]

lemma notifications_handleMessage (v : J) (hv : lib.isObject v = true) :
    (s.handleMessage lib v).notifications =
      s.notifications ++ if lib.isNotification v then [lib.data v] else [] := by
  rw [handleMessage, hv]
  simp only [Bool.not_true, Bool.false_eq_true, if_false, notify]
  cases lib.requestId v <;> split_ifs <;> simp [notifications_settle]

lemma Inv.handleMessage (h : Inv n s) (v : J) : Inv n (s.handleMessage lib v) := by
  have hnot : ∀ {s : IPCClient J}, Inv n s → Inv n (s.notify lib v) := fun hs => by
    rw [notify]
    split_ifs
    · exact hs.of_eq rfl rfl rfl
    · exact hs
  rw [IPCClient.handleMessage]
  split_ifs
  · exact h.of_eq rfl rfl rfl
  · cases lib.requestId v with
    | none => exact hnot h
    | some j => exact hnot (h.settle j _)

end IPCClient
end

def GivesUp {α : Type} (l : IPCStep α) (j : ℕ) : Prop :=
  l = .timeout j ∨ ∃ error, l = .writeError j error

lemma nextWith_cases {α J : Type} {handle : IPCClient J → α → IPCClient J} {s s' : IPCClient J}
    {l : IPCStep α} (hn : IPCClient.nextWith handle s l = some s') :
    l = .send ∧ s' = s.send ∨ (∃ f, l = .data f ∧ s' = handle s f) ∨
      ∃ j o, GivesUp l j ∧ s' = s.settle j o := by
  cases l with
  | send =>
    cases hn
    exact Or.inl ⟨rfl, rfl⟩
  | data f =>
    cases hn
    exact Or.inr (Or.inl ⟨f, rfl, rfl⟩)
  | timeout j =>
    simp only [IPCClient.nextWith, ite_none_right_eq_some, Option.some.injEq] at hn
    exact Or.inr (Or.inr ⟨j, _, Or.inl rfl, hn.2.symm⟩)
  | writeError j error =>
    simp only [IPCClient.nextWith, ite_none_right_eq_some, Option.some.injEq] at hn
    exact Or.inr (Or.inr ⟨j, _, Or.inr ⟨error, rfl⟩, hn.2.symm⟩)

section
variable {J : Type} (lib : ResponseLib J) {fs : List (IPCStep (Frame lib))} {s : IPCClient J}

lemma messagesIn_givesUp {l : IPCStep (Frame lib)} {j : ℕ} (h : GivesUp l j) :
    messagesIn lib [l] = [] ∧ sends [l] = 0 := by
  rcases h with rfl | ⟨error, rfl⟩ <;> exact ⟨rfl, rfl⟩

lemma messagesIn_snoc (fs : List (IPCStep (Frame lib))) (l : IPCStep (Frame lib)) :
    messagesIn lib (fs ++ [l]) = messagesIn lib fs ++ messagesIn lib [l] := by
  simp [messagesIn, chunks_append]

section
variable (h : Run (IPCClient.nextWith (handleFrame lib)) (fun _ _ => True) IPCClient.init fs s)
include h

lemma inv_of_run : IPCClient.Inv (sends fs) s := by
  refine h.invariant_history (fun fs s => IPCClient.Inv (sends fs) s) ?_ ?_
  · refine ⟨rfl, nodup_nil, fun k => iff_of_false not_mem_nil fun hk => ?_, fun _ _ => rfl⟩
    have hle : k ≤ 0 := hk.2.1
    have hpos := hk.1
    omega
  · intro fs s l s' hinv _ hn
    rw [sends_append]
    rcases nextWith_cases hn with ⟨rfl, rfl⟩ | ⟨f, rfl, rfl⟩ | ⟨j, o, hl, rfl⟩
    · exact hinv.send
    · rw [handleFrame]
      cases f.message with
      | none => exact hinv.of_eq rfl rfl rfl
      | some m => exact hinv.handleMessage m.value
    · rw [(messagesIn_givesUp lib hl).2]
      exact hinv.settle j o

lemma notifications_of_run :
    s.notifications = ((messagesIn lib fs).filter fun m => lib.isNotification m.value).map
      fun m => lib.data m.value := by
  refine h.invariant_history (fun fs s => s.notifications =
    ((messagesIn lib fs).filter fun m => lib.isNotification m.value).map
      fun m => lib.data m.value) rfl ?_
  intro fs s l s' ih _ hn
  rw [messagesIn_snoc, filter_append, map_append, ← ih]
  rcases nextWith_cases hn with ⟨rfl, rfl⟩ | ⟨f, rfl, rfl⟩ | ⟨j, o, hl, rfl⟩
  · simp [messagesIn, chunks, IPCClient.send]
  · rw [handleFrame]
    cases hm : f.message with
    | none => simp [messagesIn, chunks, hm, IPCClient.parseError]
    | some m =>
      rw [IPCClient.notifications_handleMessage m.value m.isObject]
      by_cases hnote : lib.isNotification m.value = true <;>
        simp [messagesIn, chunks, hm, hnote]
  · rw [IPCClient.notifications_settle, (messagesIn_givesUp lib hl).1]
    simp

end

def answersTo (messages : List (ServerMessage lib)) (k : ℕ) : List (Outcome J) :=
  (messages.filter fun m => lib.requestId m.value = some k).map fun m => lib.outcome m.value

variable {messages : List (ServerMessage lib)} {k : ℕ}

lemma answersTo_eq_nil (h : ∀ m ∈ messages, lib.requestId m.value ≠ some k) :
    answersTo lib messages k = [] := by
  rw [answersTo, map_eq_nil_iff, filter_eq_nil_iff]
  exact fun m hm => by simpa using h m hm

lemma settlements_handleFrame {f : Frame lib}
    (hrun : Run (IPCClient.nextWith (handleFrame lib)) (fun _ _ => True) IPCClient.init fs s)
    (hsett : s.settlements k = answersTo lib (messagesIn lib fs) k)
    (hsent : ∀ m, f.message = some m → lib.requestId m.value = some k → 1 ≤ k ∧ k ≤ sends fs)
    (honce : ((messagesIn lib fs).filterMap (fun m => lib.requestId m.value) ++
      (messagesIn lib [.data f]).filterMap fun m => lib.requestId m.value).Nodup) :
    (handleFrame lib s f).settlements k =
      s.settlements k ++ answersTo lib (messagesIn lib [.data f]) k := by
  rw [handleFrame]
  cases hm : f.message with
  | none =>
    have hnone : messagesIn lib [.data f] = [] := by simp [messagesIn, chunks, hm]
    rw [hnone]
    exact (append_nil _).symm
  | some m =>
    have hone : messagesIn lib [.data f] = [m] := by simp [messagesIn, chunks, hm]
    rw [IPCClient.settlements_handleMessage m.value m.isObject, hone]
    split_ifs with hid
    · have hpos := hsent m hm hid
      have hnew : s.settlements k = [] := by
        rw [hsett]
        refine answersTo_eq_nil lib fun m' hm' hid' => ?_
        refine (nodup_append.mp honce).2.2 k ?_ k ?_ rfl
        · exact mem_filterMap.mpr ⟨m', hm', hid'⟩
        · exact mem_filterMap.mpr ⟨m, by simp [hone], hid⟩
      have hpend : k ∈ s.pendingRequests :=
        ((inv_of_run lib hrun).pending k).mpr ⟨hpos.1, hpos.2, hnew⟩
      rw [IPCClient.settlements_settle_of_mem hpend]
      simp [answersTo, hid]
    · rw [answersTo_eq_nil lib (by simpa using hid), append_nil]

lemma settlements_of_run
    (h : Run (IPCClient.nextWith (handleFrame lib)) (fun _ _ => True) IPCClient.init fs s)
    (hsent : ∀ fs₁ f m fs₂, fs = fs₁ ++ .data f :: fs₂ → f.message = some m →
      lib.requestId m.value = some k → 1 ≤ k ∧ k ≤ sends fs₁)
    (honce : ((messagesIn lib fs).filterMap fun m => lib.requestId m.value).Nodup)
    (hkept : .timeout k ∉ fs ∧ ∀ error, .writeError k error ∉ fs) :
    s.settlements k = answersTo lib (messagesIn lib fs) k := by
  induction h with
  | nil => rfl
  | @snoc fs s l s' hrun _ hn ih =>
    rw [messagesIn_snoc, filterMap_append] at honce
    have hsett := ih
      (fun fs₁ f m fs₂ hfs => hsent fs₁ f m (fs₂ ++ [l]) (by simp [hfs]))
      (nodup_append.mp honce).1
      ⟨fun hmem => hkept.1 (mem_append_left _ hmem),
        fun error hmem => hkept.2 error (mem_append_left _ hmem)⟩
    rw [messagesIn_snoc, answersTo, filter_append, map_append, ← answersTo, ← hsett, ← answersTo]
    rcases nextWith_cases hn with ⟨rfl, rfl⟩ | ⟨f, rfl, rfl⟩ | ⟨j, o, hl, rfl⟩
    · exact (append_nil _).symm
    · exact settlements_handleFrame lib hrun hsett (fun m => hsent fs f m [] rfl) honce
    · have hj : j ≠ k := by
        rintro rfl
        rcases hl with rfl | ⟨error, rfl⟩
        · exact hkept.1 (by simp)
        · exact hkept.2 error (by simp)
      rw [IPCClient.settlements_settle_of_ne hj, (messagesIn_givesUp lib hl).1]
      exact (append_nil _).symm

lemma answersTo_eq_singleton {m : ServerMessage lib}
    (honce : (messages.filterMap fun m => lib.requestId m.value).Nodup) (hm : m ∈ messages)
    (hk : lib.requestId m.value = some k) : answersTo lib messages k = [lib.outcome m.value] := by
  obtain ⟨before, after, rfl⟩ := append_of_mem hm
  rw [filterMap_append,
    filterMap_cons_some (f := fun m : ServerMessage lib => lib.requestId m.value) hk,
    nodup_append, nodup_cons] at honce
  obtain ⟨-, ⟨hlat, -⟩, hear⟩ := honce
  have hbef : answersTo lib before k = [] := answersTo_eq_nil lib fun m' hm' hk' =>
    hear k (mem_filterMap.mpr ⟨m', hm', hk'⟩) k mem_cons_self rfl
  have haft : answersTo lib after k = [] := answersTo_eq_nil lib fun m' hm' hk' =>
    hlat (mem_filterMap.mpr ⟨m', hm', hk'⟩)
  rw [answersTo] at hbef haft ⊢
  rw [filter_append, map_append, hbef, filter_cons_of_pos (by simpa using hk), map_cons, haft]
  rfl

theorem survivesChunking_of_framed (ls : List (IPCStep (List UInt8)))
    (messages : List (ServerMessage lib)) : SurvivesChunking lib (Framed lib) ls messages := by
  intro _ hans hfrm s hrun
  obtain ⟨fs, rfl, rfl⟩ := hfrm
  have hfram := hrun.of_map _ (next_map_bytes lib)
  refine ⟨fun m hm k hk => ?_, notifications_of_run lib hfram⟩
  have hsent : ∀ fs₁ f m fs₂, fs = fs₁ ++ .data f :: fs₂ → f.message = some m →
      lib.requestId m.value = some k → 1 ≤ k ∧ k ≤ sends fs₁ :=
    fun _ _ _ _ hfs hm hk => hans.sent_before lib hfs hm hk
  obtain ⟨htmo, herr⟩ := hans.kept m hm k hk
  have hkept : .timeout k ∉ fs ∧ ∀ error, .writeError k error ∉ fs :=
    ⟨fun hmem => htmo (List.mem_map.mpr ⟨_, hmem, rfl⟩),
      fun error hmem => herr error (List.mem_map.mpr ⟨_, hmem, rfl⟩)⟩
  rw [settlements_of_run lib hfram hsent hans.once hkept]
  exact answersTo_eq_singleton lib hans.once hm hk

end

section

def documentLib (parse : List UInt8 → Option JsonValue)
    (h : ∀ n, parse (List.replicate n 10) = none) : ResponseLib JsonValue where
  parse := parse
  isObject
    | .object _ | .array _ => true
    | _ => false
  requestId v :=
    match v.field? "request_id" with
    | some (.integer n) => some n.toNat
    | _ => none
  error v :=
    match v.field? "error" with
    | some (.string text) => if text.isEmpty then none else some text
    | _ => none
  data v := (v.field? "data").getD .null
  isNotification v :=
    match v.field? "type" with
    | some (.string type) => type = "notification"
    | _ => false
  parse_newlines := h

def responseText (digit : UInt8) : List UInt8 :=
  ("\x7b\"request_id\":".toList.map fun c => UInt8.ofNat c.toNat) ++ [digit, 125]

def responseTo (requestId : ℤ) : JsonValue := .object [("request_id", .integer requestId)]

def sampleParse (bytes : List UInt8) : Option JsonValue :=
  let text := bytes.filter (· ≠ 10)
  if text = responseText 49 then some (responseTo 1)
  else if text = responseText 50 then some (responseTo 2)
  else none

lemma filter_newlines (n : ℕ) : (List.replicate n (10 : UInt8)).filter (· ≠ 10) = [] := by
  simp

def sampleResponses : ResponseLib JsonValue :=
  documentLib sampleParse fun n => by
    rw [sampleParse, filter_newlines]
    rfl

def firstResponse : ServerMessage sampleResponses where
  text := responseText 49
  value := responseTo 1
  isObject := rfl
  parse_text m n := by
    change sampleParse _ = _
    rw [sampleParse, List.filter_append, List.filter_append, filter_newlines, filter_newlines]
    rfl
  exists_ne_newline := ⟨125, by decide, by decide⟩

def secondResponse : ServerMessage sampleResponses where
  text := responseText 50
  value := responseTo 2
  isObject := rfl
  parse_text m n := by
    change sampleParse _ = _
    rw [sampleParse, List.filter_append, List.filter_append, filter_newlines, filter_newlines]
    rfl
  exists_ne_newline := ⟨125, by decide, by decide⟩

/-- Two requests are sent, and their responses arrive in one chunk. -/
theorem not_survivesChunking : ¬ ∀ (J : Type) (lib : ResponseLib J)
    (ls : List (IPCStep (List UInt8))) (messages : List (ServerMessage lib)),
      SurvivesChunking lib (fun _ _ => True) ls messages := by
  intro hall
  let lib := sampleResponses
  let messages := [firstResponse, secondResponse]
  let ls : List (IPCStep (List UInt8)) := [.send, .send, .data (stream lib messages)]
  have hans : Answers lib ls messages := by
    refine ⟨by decide, ?_, ?_⟩
    · intro before m after k hmes hk
      rcases before with _ | ⟨first, _ | ⟨second, before⟩⟩
      · obtain ⟨rfl, -⟩ := List.cons.inj hmes
        cases hk
        exact ⟨[], _, rfl, rfl, nil_prefix⟩
      · obtain ⟨rfl, -⟩ := List.cons.inj (List.cons.inj hmes).2
        cases hk
        exact ⟨[.send], _, rfl, rfl, nil_prefix⟩
      · have hlen := congrArg List.length hmes
        simp [messages] at hlen
    · intro m _ k _
      simp [ls]
  have hrun : ∃ s, exec (IPCClient.next lib) (fun _ _ => true) IPCClient.init ls = some s ∧
      s.settlements 1 = [] := ⟨_, rfl, rfl⟩
  obtain ⟨s, hs, hnone⟩ := hrun
  have hdel := hall JsonValue lib ls messages (by simp [chunks, ls]) hans trivial s
    (Run.of_exec (fun _ _ _ => trivial) hs)
  have hone := hdel.settled firstResponse (by simp [messages]) 1 rfl
  rw [hnone] at hone
  cases hone

end
end Mxrc.Webapi
