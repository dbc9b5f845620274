/-
# Catching up loses no message

Every message of a chat past the checkpoint that a provider had at the beginning, up to the one that is
stored now, has a genuine row of that provider, whatever the passes ran into, the live messages did
and the operator changed.

The positions of a pass are tied together by what is between them: the messages between the start of
the pass and its floor have a genuine row, or are not before the earliest unaccounted retrieval, and
the checkpoint stays below that one.  A page is what the chat has past the floor, so the next message
of the page is the next message of the chat.
-/
import GuvFX.SignalIntake.Listener

namespace GuvFX
namespace SignalIntake

open Runs

/-! ### Providers -/

namespace Providers

lemma of_get {t : Providers} {slug : String} {p : SignalProvider} (h : t.get slug = some p) :
    p ∈ t.rows ∧ p.slug = slug := by
  unfold get at h
  have hslug := List.find?_some h
  exact ⟨List.mem_of_find?_eq_some h, of_decide_eq_true hslug⟩

lemma get_modify (t : Providers) (slug : String) (f : SignalProvider → SignalProvider)
    (hf : ∀ p, (f p).slug = p.slug) (slug' : String) :
    (t.modify slug f hf).get slug' = if slug' = slug then (t.get slug').map f else t.get slug' := by
  have hpred : ((fun p : SignalProvider => decide (p.slug = slug')) ∘
      fun p => if p.slug = slug then f p else p) = fun p => decide (p.slug = slug') := by
    funext p
    by_cases h : p.slug = slug
    · simp [h, hf]
    · simp [h]
  rw [get, modify, List.find?_map, hpred]
  split_ifs with hslug
  · cases h : t.get slug' with
    | none => exact congrArg _ h
    | some p =>
      have hp : p.slug = slug := (of_get h).2.trans hslug
      exact (congrArg _ h).trans (by simp [hp])
  · cases h : t.get slug' with
    | none => exact congrArg _ h
    | some p =>
      have hp : p.slug ≠ slug := fun heq => hslug ((of_get h).2.symm.trans heq)
      exact (congrArg _ h).trans (by simp [hp])

lemma forChat_modify (t : Providers) (slug : String) {f : SignalProvider → SignalProvider}
    (hf : ∀ p, (f p).slug = p.slug) (hchat : ∀ p, (f p).telegramChatId = p.telegramChatId)
    (c : String) :
    ((t.modify slug f hf).forChat c).map SignalProvider.slug =
      (t.forChat c).map SignalProvider.slug := by
  have hpred : ((fun p : SignalProvider => decide (p.telegramChatId = c)) ∘
      fun p => if p.slug = slug then f p else p) = fun p => decide (p.telegramChatId = c) := by
    funext p
    by_cases h : p.slug = slug
    · simp [h, hchat]
    · simp [h]
  rw [forChat, modify, List.find?_map, hpred, Option.map_map]
  refine congrArg (fun g => (t.forChat c).map g) (funext fun p => ?_)
  by_cases h : p.slug = slug
  · simp [h, hf]
  · simp [h]

lemma get_of_forChat {t : Providers} {c : String} {p : SignalProvider} (h : t.forChat c = some p) :
    t.get p.slug = some p ∧ p.telegramChatId = c := by
  unfold forChat at h
  have hchat := List.find?_some h
  have hmem : p ∈ t.rows := List.mem_of_find?_eq_some h
  refine ⟨?_, of_decide_eq_true hchat⟩
  cases hget : t.get p.slug with
  | none =>
    unfold get at hget
    exact absurd (decide_eq_true rfl) (List.find?_eq_none.mp hget p hmem)
  | some q =>
    obtain ⟨hq, hslug⟩ := of_get hget
    have hnodup : (t.rows.map SignalProvider.slug).Nodup := by
      refine t.sorted.imp fun {a b} hlt heq => ?_
      rw [heq] at hlt
      exact String.lt_irrefl b hlt
    exact congrArg some (List.inj_on_of_nodup_map hnodup hq hmem hslug)

end Providers

/-! ### The store grows -/

/-- There is a genuine row for a message of a provider in a chat. -/
def Ledger.Genuine (ledger : Ledger) (slug c : String) (id : ℕ+) : Prop :=
  (ledger.acquired.get ⟨slug, c, toString (id : ℕ), false⟩).isSome

/-- No row is lost, and the providers keep their chats and their checkpoints. -/
structure Grows (l l' : Ledger) : Prop where
  acquired : ∀ key row, l.acquired.get key = some row → l'.acquired.get key = some row
  route : ∀ c, (l'.providers.forChat c).map SignalProvider.slug =
    (l.providers.forChat c).map SignalProvider.slug
  marks : ∀ slug, (l'.providers.get slug).map (fun p => (p.telegramChatId, p.checkpoint)) =
    (l.providers.get slug).map fun p => (p.telegramChatId, p.checkpoint)

lemma Grows.refl (l : Ledger) : Grows l l := ⟨fun _ _ h => h, fun _ => rfl, fun _ => rfl⟩

variable {slug c : String} {l l' : Ledger}

lemma Grows.genuine (hg : Grows l l') {id : ℕ+} (h : l.Genuine slug c id) :
    l'.Genuine slug c id := by
  obtain ⟨row, hrow⟩ := Option.isSome_iff_exists.mp h
  exact Option.isSome_iff_exists.mpr ⟨row, hg.acquired _ row hrow⟩

lemma grows_modifyProvider (l : Ledger) (slug : String) {f : SignalProvider → SignalProvider}
    (hf : ∀ p, (f p).slug = p.slug) (hchat : ∀ p, (f p).telegramChatId = p.telegramChatId)
    (hcheck : ∀ p, (f p).checkpoint = p.checkpoint) : Grows l (l.modifyProvider slug f hf) where
  acquired _ _ h := h
  route c := Providers.forChat_modify l.providers slug hf hchat c
  marks slug' := by
    dsimp only [Ledger.modifyProvider]
    rw [Providers.get_modify]
    split_ifs
    · rw [Option.map_map]
      refine congrArg (fun g => (l.providers.get slug').map g) (funext fun p => ?_)
      simp [hchat, hcheck]
    · rfl

lemma acquired_recordAmendment (env : Env) (l : Ledger) (provider : SignalProvider)
    (original : AcquiredMessage) (message : Message) (now : ℤ) :
    (recordAmendment env l provider original message now).acquired = l.acquired ∧
      (recordAmendment env l provider original message now).providers = l.providers := by
  unfold recordAmendment intakeParsed
  dsimp only
  repeat' split
  all_goals exact ⟨rfl, rfl⟩

lemma grows_callStep (env : Env) (l : Ledger) (call : Call) (fault : Option Fault) (clock : ℤ) :
    Grows l (callStep env l call fault clock).1 := by
  have hsame : ∀ {l' : Ledger}, l'.acquired = l.acquired → l'.providers = l.providers → Grows l l' := by
    intro l' hacq hprov
    exact ⟨fun key row h => hacq ▸ h, fun c => by rw [hprov], fun slug => by rw [hprov]⟩
  unfold callStep
  cases hphase : call.phase with
  | writing outcome reason approval =>
    dsimp only
    split
    · exact Grows.refl l
    · split
      · split <;> exact Grows.refl l
      · next acquired hins =>
        refine ⟨fun key row h => ?_, fun _ => rfl, fun _ => rfl⟩
        dsimp only
        rw [Rows.get_of_insert hins]
        split_ifs with hkey
        · have hfresh : l.acquired.get (call.row outcome reason approval clock).key = none := by
            refine Rows.get_eq_none_iff.mpr fun r hr heq => ?_
            rw [Rows.insert_eq_none_iff.mpr ⟨r, hr, heq⟩] at hins
            cases hins
          rw [hkey, h] at hfresh
          cases hfresh
        · exact h
  | bookkeeping acq =>
    dsimp only
    split
    · exact Grows.refl l
    · exact grows_modifyProvider l call.provider.slug
        (f := SignalProvider.seen call.message.mid call.now) (fun _ => rfl) (fun _ => rfl) fun _ => rfl
  | amending existing =>
    dsimp only
    split
    · exact Grows.refl l
    · exact Grows.refl l
    · have hl := acquired_recordAmendment env l call.provider existing call.message call.now
      exact hsame hl.1 hl.2
  | opening =>
    dsimp only
    repeat' split
    all_goals exact Grows.refl l
  | classifying =>
    dsimp only
    repeat' split
    all_goals exact Grows.refl l
  | intaking parsed edited =>
    dsimp only
    repeat' split
    all_goals exact Grows.refl l
  | creating parsed edited =>
    dsimp only
    repeat' split
    all_goals exact hsame rfl rfl
  | notifying acq => exact hsame rfl rfl
  | done acq => exact Grows.refl l
  | raised => exact Grows.refl l

/-! ### Calls -/

/-- A call is for the provider of its chat, and the row it has in hand is that of its key. -/
structure CallKept (l : Ledger) (call : Call) : Prop where
  routed : (l.providers.forChat call.message.chatId).map SignalProvider.slug =
    some call.provider.slug
  inHand : ∀ acq, call.phase = .amending acq ∨ call.phase = .bookkeeping acq ∨
    call.phase = .notifying acq ∨ call.phase = .done acq → l.acquired.get call.key = some acq

lemma CallKept.grow {call : Call} (hk : CallKept l call) (hg : Grows l l') : CallKept l' call :=
  ⟨(hg.route _).trans hk.routed, fun acq h => hg.acquired _ _ (hk.inHand acq h)⟩

lemma get_of_written {acquired : Rows AcquiredMessage AcquiredMessage.key} {acq : AcquiredMessage}
    (h : l.acquired.insert acq = some acquired) : acquired.get acq.key = some acq := by
  rw [Rows.get_of_insert h, if_pos rfl]

lemma CallKept.step {env : Env} {call : Call} (hk : CallKept l call) (fault : Option Fault)
    (clock : ℤ) :
    CallKept (callStep env l call fault clock).1
      { call with phase := (callStep env l call fault clock).2 } := by
  have hg := grows_callStep env l call fault clock
  refine ⟨(hg.route _).trans hk.routed, fun acq hacq => ?_⟩
  -- what a step has in hand it had before, or has read under the key, or has written
  suffices h : l.acquired.get call.key = some acq ∨
      (callStep env l call fault clock).1.acquired.get call.key = some acq by
    exact h.elim (hg.acquired _ _) id
  have hin := hk.inHand acq
  revert hacq
  unfold callStep
  cases hphase : call.phase with
  | opening =>
    dsimp only
    split
    · rintro (h | h | h | h) <;> cases h
    · split
      · next existing hget =>
        split
        · rintro (h | h | h | h) <;> cases h
          exact .inl hget
        · rintro (h | h | h | h) <;> cases h
          exact .inl hget
      · split
        · rintro (h | h | h | h) <;> cases h
        · rintro (h | h | h | h) <;> cases h
  | amending existing =>
    dsimp only
    split
    · rintro (h | h | h | h) <;> cases h
    · rintro (h | h | h | h) <;> cases h
      exact .inl (hin (.inl hphase))
    · rintro (h | h | h | h) <;> cases h
      exact .inl (hin (.inl hphase))
  | classifying =>
    dsimp only
    repeat' split
    all_goals rintro (h | h | h | h) <;> cases h
  | intaking parsed edited =>
    dsimp only
    repeat' split
    all_goals rintro (h | h | h | h) <;> cases h
  | creating parsed edited =>
    dsimp only
    repeat' split
    all_goals rintro (h | h | h | h) <;> cases h
  | writing outcome reason approval =>
    dsimp only
    split
    · rintro (h | h | h | h) <;> cases h
    · split
      · split
        · next existing hget =>
          rintro (h | h | h | h) <;> cases h
          exact .inl hget
        · rintro (h | h | h | h) <;> cases h
      · next acquired hins =>
        split
        · rintro (h | h | h | h) <;> cases h
          exact .inr (get_of_written hins)
        · rintro (h | h | h | h) <;> cases h
          exact .inr (get_of_written hins)
  | bookkeeping acq' =>
    dsimp only
    split
    · rintro (h | h | h | h) <;> cases h
    · rintro (h | h | h | h) <;> cases h
      exact .inl (hin (.inr (.inl hphase)))
  | notifying acq' =>
    rintro (h | h | h | h) <;> cases h
    exact .inl (hin (.inr (.inr (.inl hphase))))
  | done acq' =>
    rintro (h | h | h | h) <;> cases h
    exact .inl (hin (.inr (.inr (.inr hphase))))
  | raised => rintro (h | h | h | h) <;> cases h

lemma CallKept.genuine {call : Call} (hk : CallKept l call) {acq : AcquiredMessage}
    (hdone : call.phase = .done acq) (hacc : accounted (some acq) = true) :
    l.Genuine call.provider.slug call.message.chatId call.message.id := by
  have hget := hk.inHand acq (.inr (.inr (.inr hdone)))
  have hkey : acq.key = call.key := (Rows.get_eq_some_iff.mp hget).2
  have hgenuine : call.nonGenuine = false := by
    have hrow : acq.key.nonGenuine = false := by simpa [accounted] using hacc
    rw [hkey] at hrow
    exact hrow
  refine Option.isSome_iff_exists.mpr ⟨acq, ?_⟩
  rw [← hget, Call.key, hgenuine, Message.mid]

/-! ### Positions -/

def number (id : ℕ+) : ℤ := (id : ℕ)

lemma number_pos (id : ℕ+) : 0 < number id := by
  have h := id.pos
  unfold number
  omega

def Chat.Has (chat : Chat) (id : ℕ+) : Prop := ∃ m ∈ chat.messages, m.id = id

/-- A bound that no later message goes under: it is not above `x`, or not above a message. -/
def Below (chat : Chat) (x y : ℤ) : Prop := y ≤ x ∨ ∃ id, chat.Has id ∧ y ≤ number id

/-- What is between the start of a pass and its floor, in the chat of the provider. -/
def Covered (l : Ledger) (slug c : String) (chat : Chat) (res : CatchupResult) (F : ℤ) : Prop :=
  ∀ id, chat.Has id → res.fromCheckpoint < number id → number id ≤ F →
    l.Genuine slug c id ∨ (res.unaccountedFloor ≠ 0 ∧ res.unaccountedFloor ≤ number id)

/-- A pass at the floor `F` with the checkpoint `K`. -/
structure At (l : Ledger) (slug c : String) (chat : Chat) (res : CatchupResult) (F K : ℤ) : Prop where
  from_le : res.fromCheckpoint ≤ F
  below : Below chat res.fromCheckpoint F
  saved_le : res.checkpoint ≤ K
  le : K ≤ F
  unaccounted : res.unaccountedFloor ≠ 0 → K < res.unaccountedFloor
  covered : Covered l slug c chat res F
  complete : res.status = .complete

/-- The messages of a page that are left are the next ones of the chat past the floor `F`; if the page
is not full, nothing that was in the chat when it was fetched comes after them. -/
structure PageKept (chat : Chat) (pass : Pass) (pageLen : ℕ) (rest : List Message) (F : ℤ) : Prop where
  ordered : rest.Pairwise fun m m' => m.number < m'.number
  above : ∀ m ∈ rest, F < m.number
  routed : ∀ m ∈ rest, m.chatId = pass.chat
  has : ∀ m ∈ rest, chat.Has m.id
  next : ∀ id, chat.Has id → F < number id → (∃ m ∈ rest, m.id = id) ∨
    ((∀ m ∈ rest, m.number < number id) ∧ (pageLen < pass.pageSize → pass.horizon < number id))

def PhaseKept (l : Ledger) (chat : Chat) (call : Option Call) (pass : Pass) : Prop :=
  match pass.phase with
  | .looping => At l pass.provider.slug pass.chat chat pass.res pass.floor pass.checkpoint
  | .processing pageLen rest floor checkpoint waiting =>
    At l pass.provider.slug pass.chat chat pass.res floor checkpoint ∧
      PageKept chat pass pageLen rest floor ∧
      (waiting.isSome → ∀ running, call = some running → rest.head? = some running.message)
  | .persisting pageLen =>
    At l pass.provider.slug pass.chat chat pass.res pass.floor pass.checkpoint ∧
      (pageLen < pass.pageSize → ∀ id, chat.Has id → number id ≤ pass.floor ∨
        pass.horizon < number id)
  | .finished => pass.res.status = .complete →
      At l pass.provider.slug pass.chat chat pass.res pass.floor pass.checkpoint ∧
        ∀ id, chat.Has id → number id ≤ pass.horizon → number id ≤ pass.floor

structure PassKept (l : Ledger) (chat : Chat) (call : Option Call) (pass : Pass) : Prop where
  routed : (l.providers.forChat pass.chat).map SignalProvider.slug = some pass.provider.slug
  stored : (l.providers.get pass.provider.slug).map (fun p => (p.telegramChatId, p.checkpoint)) =
    some (pass.chat, pass.res.checkpoint)
  from_le : pass.res.fromCheckpoint ≤ pass.res.checkpoint
  horizon : Below chat 0 pass.horizon
  size : 0 < pass.pageSize
  phase : PhaseKept l chat call pass

/-- What is stored with a provider that began with the checkpoint `x`. -/
structure Saved (l : Ledger) (chat : Chat) (x : ℤ) (p : SignalProvider) : Prop where
  le : x ≤ p.checkpoint
  below : Below chat x p.checkpoint
  genuine : ∀ id, chat.Has id → x < number id → number id ≤ p.checkpoint →
    l.Genuine p.slug p.telegramChatId id

/-- The invariant, from the store at the beginning. -/
structure Kept (l₀ : Ledger) (s : State) : Prop where
  saved : ∀ slug p, s.ledger.providers.get slug = some p → ∃ p₀, l₀.providers.get slug = some p₀ ∧
    p₀.telegramChatId = p.telegramChatId ∧
    Saved s.ledger (s.chats p.telegramChatId) p₀.checkpoint p
  calls : ∀ k call, s.calls k = some call → CallKept s.ledger call
  pass : ∀ pass, s.pass = some pass → PassKept s.ledger (s.chats pass.chat) (s.calls 0) pass

/-! ### Positions survive -/

variable {F K x y : ℤ}

lemma Covered.grow (hg : Grows l l') {chat : Chat} {res : CatchupResult}
    (h : Covered l slug c chat res F) : Covered l' slug c chat res F :=
  fun id hid hfrom hle => (h id hid hfrom hle).imp_left hg.genuine

lemma At.grow (hg : Grows l l') {chat : Chat} {res : CatchupResult} (h : At l slug c chat res F K) :
    At l' slug c chat res F K :=
  { h with covered := h.covered.grow hg }

structure ChatGrows (chat chat' : Chat) : Prop where
  kept : ∀ id, chat.Has id → chat'.Has id
  fresh : ∀ id, chat'.Has id → chat.Has id ∨ ∀ id', chat.Has id' → number id' < number id

lemma ChatGrows.refl (chat : Chat) : ChatGrows chat chat := ⟨fun _ h => h, fun _ h => .inl h⟩

variable {chat' : Chat}

lemma Below.chat {chat : Chat} (hc : ChatGrows chat chat') (h : Below chat x y) : Below chat' x y :=
  h.imp_right fun ⟨id, hid, hle⟩ => ⟨id, hc.kept id hid, hle⟩

/-- A message under such a bound was there before. -/
lemma Below.has {chat : Chat} (hc : ChatGrows chat chat') (h : Below chat x y) {id : ℕ+}
    (hid : chat'.Has id) (hx : x < number id) (hy : number id ≤ y) : chat.Has id := by
  refine (hc.fresh id hid).resolve_right fun hnew => ?_
  rcases h with h | ⟨id', hid', hle⟩
  · omega
  · have := hnew id' hid'
    omega

lemma Covered.chat {chat : Chat} (hc : ChatGrows chat chat') {res : CatchupResult}
    (hb : Below chat res.fromCheckpoint F) (h : Covered l slug c chat res F) :
    Covered l slug c chat' res F :=
  fun id hid hfrom hle => h id (hb.has hc hid hfrom hle) hfrom hle

lemma At.chat {chat : Chat} (hc : ChatGrows chat chat') {res : CatchupResult}
    (h : At l slug c chat res F K) : At l slug c chat' res F K :=
  { h with
    below := h.below.chat hc
    covered := h.covered.chat hc h.below }

variable {pageLen : ℕ}

lemma PageKept.chat {chat : Chat} (hc : ChatGrows chat chat') {pass : Pass} {rest : List Message}
    (hb : Below chat 0 pass.horizon) (h : PageKept chat pass pageLen rest F) :
    PageKept chat' pass pageLen rest F where
  ordered := h.ordered
  above := h.above
  routed := h.routed
  has m hm := hc.kept _ (h.has m hm)
  next id hid hF := by
    rcases hc.fresh id hid with hold | hnew
    · exact h.next id hold hF
    · refine .inr ⟨fun m hm => hnew m.id (h.has m hm), fun _ => ?_⟩
      rcases hb with hb | ⟨id', hid', hle⟩
      · have := number_pos id
        omega
      · have := hnew id' hid'
        omega

lemma pageKept_fetch (chat : Chat) (pass : Pass) (F : ℤ) :
    PageKept chat pass
      ((fetchPage chat F pass.pageSize).map fun m => { m with chatId := pass.chat }).length
      ((fetchPage chat F pass.pageSize).map fun m => { m with chatId := pass.chat }) F where
  ordered := by
    refine List.pairwise_map.mpr ?_
    exact (chat.ascending.sublist List.filter_sublist).sublist (List.take_sublist _ _)
  above m hm := by
    obtain ⟨m', hm', rfl⟩ := List.mem_map.mp hm
    have := List.mem_filter.mp (List.mem_of_mem_take hm')
    exact of_decide_eq_true this.2
  routed m hm := by
    obtain ⟨m', hm', rfl⟩ := List.mem_map.mp hm
    rfl
  has m hm := by
    obtain ⟨m', hm', rfl⟩ := List.mem_map.mp hm
    exact ⟨m', (List.mem_filter.mp (List.mem_of_mem_take hm')).1, rfl⟩
  next id hid hF := by
    obtain ⟨m, hm, rfl⟩ := hid
    have hpast : m ∈ chat.messages.filter fun m => F < m.number :=
      List.mem_filter.mpr ⟨hm, decide_eq_true hF⟩
    rw [← List.take_append_drop pass.pageSize (chat.messages.filter fun m => F < m.number),
      List.mem_append] at hpast
    rcases hpast with htake | hdrop
    · exact .inl ⟨_, List.mem_map_of_mem htake, rfl⟩
    · right
      have hsplit := chat.ascending.sublist (List.filter_sublist (p := fun m => F < m.number))
      rw [← List.take_append_drop pass.pageSize (chat.messages.filter fun m => F < m.number),
        List.pairwise_append] at hsplit
      refine ⟨fun r hr => ?_, fun hlen => ?_⟩
      · obtain ⟨r', hr', rfl⟩ := List.mem_map.mp hr
        exact hsplit.2.2 r' hr' m hdrop
      · -- a page that is not full has left nothing behind
        rw [List.length_map, fetchPage, List.length_take] at hlen
        have hnil : (chat.messages.filter fun m => F < m.number).drop pass.pageSize = [] :=
          List.drop_eq_nil_of_le (by omega)
        rw [hnil] at hdrop
        cases hdrop

/-! ### Processing a message -/

@[simp] lemma count_fromCheckpoint (res : CatchupResult) (seen : List ℤ) (rid t : ℤ)
    (acq : Option AcquiredMessage) :
    (res.count seen rid t acq).fromCheckpoint = res.fromCheckpoint := by
  cases acq <;> rfl

@[simp] lemma count_checkpoint (res : CatchupResult) (seen : List ℤ) (rid t : ℤ)
    (acq : Option AcquiredMessage) :
    (res.count seen rid t acq).checkpoint = res.checkpoint := by
  cases acq <;> rfl

@[simp] lemma count_unaccountedFloor (res : CatchupResult) (seen : List ℤ) (rid t : ℤ)
    (acq : Option AcquiredMessage) :
    (res.count seen rid t acq).unaccountedFloor = res.unaccountedFloor := by
  cases acq <;> rfl

@[simp] lemma count_status (res : CatchupResult) (seen : List ℤ) (rid t : ℤ)
    (acq : Option AcquiredMessage) : (res.count seen rid t acq).status = res.status := by
  cases acq <;> rfl

lemma PageKept.eq_head {chat : Chat} {pass : Pass} {raw : Message} {rest : List Message}
    (h : PageKept chat pass pageLen (raw :: rest) F) {id : ℕ+} (hid : chat.Has id)
    (hF : F < number id) (hle : number id ≤ raw.number) : id = raw.id := by
  rcases h.next id hid hF with ⟨m, hm, rfl⟩ | ⟨hafter, -⟩
  · rcases List.mem_cons.mp hm with rfl | hm
    · rfl
    · have hlt : raw.number < number m.id := (List.pairwise_cons.mp h.ordered).1 m hm
      omega
  · have := hafter raw List.mem_cons_self
    omega

lemma PageKept.tail {chat : Chat} {pass : Pass} {raw : Message} {rest : List Message}
    (h : PageKept chat pass pageLen (raw :: rest) F) :
    PageKept chat pass pageLen rest raw.number where
  ordered := (List.pairwise_cons.mp h.ordered).2
  above m hm := (List.pairwise_cons.mp h.ordered).1 m hm
  routed m hm := h.routed m (List.mem_cons_of_mem _ hm)
  has m hm := h.has m (List.mem_cons_of_mem _ hm)
  next id hid hF := by
    have habove := h.above raw List.mem_cons_self
    rcases h.next id hid (by omega) with ⟨m, hm, rfl⟩ | ⟨hafter, hhorizon⟩
    · rcases List.mem_cons.mp hm with rfl | hm
      · exact absurd hF (lt_irrefl _)
      · exact .inl ⟨m, hm, rfl⟩
    · exact .inr ⟨fun m hm => hafter m (List.mem_cons_of_mem _ hm), hhorizon⟩

lemma At.account {chat : Chat} {pass : Pass} {raw : Message} {rest : List Message}
    (hat : At l slug c chat pass.res F K) (hpage : PageKept chat pass pageLen (raw :: rest) F)
    {acq : Option AcquiredMessage} (hacc : accounted acq = true → l.Genuine slug c raw.id) (t : ℤ) :
    At l slug c chat ((Progress.mk F K pass.seen pass.res).account raw.number t acq).res raw.number
        ((Progress.mk F K pass.seen pass.res).account raw.number t acq).checkpoint ∧
      ((Progress.mk F K pass.seen pass.res).account raw.number t acq).floor = raw.number := by
  have habove := hpage.above raw List.mem_cons_self
  have hpos : 0 < raw.number := number_pos raw.id
  obtain ⟨hfrom, hbelow, hsaved, hle, hun, hcov, hcomplete⟩ := hat
  dsimp only [Progress.account]
  rw [count_unaccountedFloor]
  refine ⟨⟨?_, ?_, ?_, ?_, ?_, ?_, ?_⟩, if_pos habove⟩
  · simp only [count_fromCheckpoint]
    omega
  · simp only [count_fromCheckpoint]
    exact .inr ⟨raw.id, hpage.has raw List.mem_cons_self, le_refl _⟩
  · simp only [count_checkpoint]
    split_ifs <;> omega
  · split_ifs <;> omega
  · dsimp only
    unfold unaccountedAfter
    cases accounted acq with
    | true =>
      simp only [Bool.not_true, Bool.false_eq_true, false_and, if_false, true_and]
      intro hne
      have := hun hne
      split_ifs <;> omega
    | false =>
      simp only [Bool.not_false, true_and, Bool.false_eq_true, false_and, if_false]
      split_ifs <;> omega
  · intro id hid hfrom' hto
    dsimp only at hfrom' ⊢
    rw [count_fromCheckpoint] at hfrom'
    have hcase : accounted acq = true → unaccountedAfter pass.res.unaccountedFloor raw.number acq =
        pass.res.unaccountedFloor := by
      intro h
      simp [unaccountedAfter, h]
    have hcase' : accounted acq = false →
        unaccountedAfter pass.res.unaccountedFloor raw.number acq ≠ 0 ∧
        unaccountedAfter pass.res.unaccountedFloor raw.number acq ≤ raw.number ∧
        (pass.res.unaccountedFloor ≠ 0 →
          unaccountedAfter pass.res.unaccountedFloor raw.number acq ≤ pass.res.unaccountedFloor) := by
      intro h
      simp only [unaccountedAfter, h, Bool.not_false, true_and]
      split_ifs <;> omega
    by_cases hF : number id ≤ F
    · refine (hcov id hid hfrom' hF).imp_right fun hbefore => ?_
      cases h : accounted acq with
      | true => rwa [hcase h]
      | false =>
        obtain ⟨hne, -, hle'⟩ := hcase' h
        have := hle' hbefore.1
        exact ⟨hne, by omega⟩
    · obtain rfl := hpage.eq_head hid (by omega) hto
      cases h : accounted acq with
      | true => exact .inl (hacc h)
      | false =>
        obtain ⟨hne, hle', -⟩ := hcase' h
        exact .inr ⟨hne, hle'⟩
  · simp only [count_status]
    exact hcomplete

/-! ### Passes survive -/

variable {l₀ : Ledger} {s : State} {pass : Pass}

lemma PhaseKept.grow (hg : Grows l l') {chat : Chat} {call : Option Call}
    (h : PhaseKept l chat call pass) : PhaseKept l' chat call pass := by
  unfold PhaseKept at h ⊢
  cases hphase : pass.phase with
  | looping =>
    rw [hphase] at h
    exact h.grow hg
  | processing pageLen rest floor checkpoint waiting =>
    rw [hphase] at h
    exact ⟨h.1.grow hg, h.2⟩
  | persisting pageLen =>
    rw [hphase] at h
    exact ⟨h.1.grow hg, h.2⟩
  | finished =>
    rw [hphase] at h
    exact fun hc => ⟨(h hc).1.grow hg, (h hc).2⟩

lemma PassKept.grow (hg : Grows l l') {chat : Chat} {call : Option Call}
    (h : PassKept l chat call pass) : PassKept l' chat call pass where
  routed := (hg.route _).trans h.routed
  stored := (hg.marks _).trans h.stored
  from_le := h.from_le
  horizon := h.horizon
  size := h.size
  phase := h.phase.grow hg

lemma past_chat {chat : Chat} (hc : ChatGrows chat chat') (hb : Below chat 0 y)
    (h : ∀ id, chat.Has id → number id ≤ x ∨ y < number id) :
    ∀ id, chat'.Has id → number id ≤ x ∨ y < number id := by
  intro id hid
  rcases hc.fresh id hid with hold | hnew
  · exact h id hold
  · right
    rcases hb with hb | ⟨id', hid', hle⟩
    · have := number_pos id
      omega
    · have := hnew id' hid'
      omega

lemma PassKept.chat {chat : Chat} (hc : ChatGrows chat chat') {call : Option Call}
    (h : PassKept l chat call pass) : PassKept l chat' call pass where
  routed := h.routed
  stored := h.stored
  from_le := h.from_le
  horizon := h.horizon.chat hc
  size := h.size
  phase := by
    have hb := h.horizon
    have hp := h.phase
    unfold PhaseKept at hp ⊢
    cases hphase : pass.phase with
    | looping =>
      rw [hphase] at hp
      exact hp.chat hc
    | processing pageLen rest floor checkpoint waiting =>
      rw [hphase] at hp
      exact ⟨hp.1.chat hc, hp.2.1.chat hc hb, hp.2.2⟩
    | persisting pageLen =>
      rw [hphase] at hp
      exact ⟨hp.1.chat hc, fun hlen => past_chat hc hb (hp.2 hlen)⟩
    | finished =>
      rw [hphase] at hp
      refine fun hcomplete => ⟨(hp hcomplete).1.chat hc, fun id hid hle => ?_⟩
      have hpast := past_chat (x := pass.floor) hc hb fun id' hid' => by
        have := (hp hcomplete).2 id' hid'
        omega
      have := hpast id hid
      omega

lemma PassKept.call {chat : Chat} {call call' : Option Call} (h : PassKept l chat call pass)
    (hcall : ∀ running', call' = some running' → ∃ running, call = some running ∧
      running.message = running'.message) : PassKept l chat call' pass where
  routed := h.routed
  stored := h.stored
  from_le := h.from_le
  horizon := h.horizon
  size := h.size
  phase := by
    have hp := h.phase
    unfold PhaseKept at hp ⊢
    cases hphase : pass.phase with
    | looping =>
      rw [hphase] at hp
      exact hp
    | processing pageLen rest floor checkpoint waiting =>
      rw [hphase] at hp
      refine ⟨hp.1, hp.2.1, fun hwait running' hrunning' => ?_⟩
      obtain ⟨running, hrunning, hmessage⟩ := hcall running' hrunning'
      rw [← hmessage]
      exact hp.2.2 hwait running hrunning
    | persisting pageLen =>
      rw [hphase] at hp
      exact hp
    | finished =>
      rw [hphase] at hp
      exact hp

lemma PassKept.stop {chat : Chat} {call : Option Call} (h : PassKept l chat call pass)
    {status : CatchupStatus} (hstatus : status ≠ .complete) (error : String) :
    PassKept l chat call (pass.stop status error) :=
  ⟨h.routed, h.stored, h.from_le, h.horizon, h.size, fun hc => absurd hc hstatus⟩

lemma below_newest (chat : Chat) : Below chat 0 chat.newest := by
  unfold Chat.newest
  cases hlast : chat.messages.getLast? with
  | none => exact .inl (le_refl _)
  | some m => exact .inr ⟨m.id, ⟨m, List.mem_of_getLast? hlast, rfl⟩, le_refl _⟩

lemma PassKept.fetch {chat : Chat} {call : Option Call} (h : PassKept l chat call pass)
    (hphase : pass.phase = .looping) (attempts : List Attempt) (clock : ℤ) :
    PassKept l chat call (pass.fetch chat attempts clock) := by
  have hat : At l pass.provider.slug pass.chat chat pass.res pass.floor pass.checkpoint := by
    have hp := h.phase
    unfold PhaseKept at hp
    rwa [hphase] at hp
  have hnewest : PassKept l chat call { pass with horizon := chat.newest } := by
    refine ⟨h.routed, h.stored, h.from_le, below_newest chat, h.size, ?_⟩
    unfold PhaseKept
    dsimp only
    rw [hphase]
    exact hat
  unfold Pass.fetch
  split
  · exact h.stop (by decide) _
  split
  · exact h.stop (by decide) _
  dsimp only
  have hpage := pageKept_fetch chat { pass with horizon := chat.newest } pass.floor
  split
  · next hnil =>
    refine ⟨h.routed, h.stored, h.from_le, below_newest chat, h.size, fun _ => ⟨hat, ?_⟩⟩
    -- an empty page has everything, for a page of messages is asked for
    intro id hid hle
    by_contra hF
    dsimp only at hpage
    rw [hnil] at hpage
    rcases hpage.next id hid (lt_of_not_ge hF) with ⟨m, hm, -⟩ | ⟨-, hpast⟩
    · cases hm
    · exact absurd (hpast h.size) (not_lt_of_ge hle)
  split
  · exact hnewest.stop (by decide) _
  · refine ⟨h.routed, h.stored, h.from_le, below_newest chat, h.size, ?_⟩
    refine ⟨⟨hat.from_le, hat.below, hat.saved_le, hat.le, hat.unaccounted, hat.covered, hat.complete⟩,
      ⟨hpage.ordered, hpage.above, hpage.routed, hpage.has, hpage.next⟩, fun hwait => by cases hwait⟩

lemma PassKept.account {chat : Chat} {call : Option Call} {raw : Message} {rest : List Message}
    {waiting : Option ℤ} (h : PassKept l chat call pass)
    (hphase : pass.phase = .processing pageLen (raw :: rest) F K waiting)
    {acq : Option AcquiredMessage}
    (hacc : accounted acq = true → l.Genuine pass.provider.slug pass.chat raw.id) (t : ℤ)
    (call' : Option Call) : PassKept l chat call' (pass.account pageLen raw rest F K t acq) := by
  have hp := h.phase
  unfold PhaseKept at hp
  rw [hphase] at hp
  obtain ⟨hat, hpage, -⟩ := hp
  obtain ⟨hat', hfloor⟩ := hat.account hpage hacc t
  have hsaved : ((Progress.mk F K pass.seen pass.res).account raw.number t acq).res.checkpoint =
      pass.res.checkpoint := count_checkpoint _ _ _ _ _
  have hfrom : ((Progress.mk F K pass.seen pass.res).account raw.number t acq).res.fromCheckpoint =
      pass.res.fromCheckpoint := count_fromCheckpoint _ _ _ _ _
  refine ⟨h.routed, ?_, ?_, h.horizon, h.size, ?_, ?_, fun hwait => by cases hwait⟩
  · dsimp only [Pass.account]
    rw [hsaved]
    exact h.stored
  · dsimp only [Pass.account]
    rw [hsaved, hfrom]
    exact h.from_le
  · dsimp only [Pass.account]
    rw [hfloor]
    exact hat'
  · have htail := hpage.tail
    dsimp only [Pass.account]
    rw [hfloor]
    exact ⟨htail.ordered, htail.above, htail.routed, htail.has, htail.next⟩

lemma PassKept.pageDone {chat : Chat} {call : Option Call} (h : PassKept l chat call pass)
    (hat : At l pass.provider.slug pass.chat chat pass.res pass.floor pass.checkpoint)
    (hpast : pageLen < pass.pageSize → ∀ id, chat.Has id → number id ≤ pass.floor ∨
      pass.horizon < number id) : PassKept l chat call (pass.pageDone pageLen) := by
  refine ⟨h.routed, h.stored, h.from_le, h.horizon, h.size, ?_⟩
  unfold Pass.pageDone PhaseKept
  by_cases hlen : pageLen < pass.pageSize
  · simp only [if_pos hlen]
    refine fun _ => ⟨hat, fun id hid hle => ?_⟩
    have := hpast hlen id hid
    omega
  · simp only [if_neg hlen]
    exact hat

/-! ### The system -/

lemma Kept.next {s' : State} (hk : Kept l₀ s) (hg : Grows s.ledger s'.ledger)
    (hchats : ∀ c, ChatGrows (s.chats c) (s'.chats c))
    (hcalls : ∀ k call, s'.calls k = some call → CallKept s'.ledger call)
    (hpass : ∀ pass, s'.pass = some pass →
      PassKept s'.ledger (s'.chats pass.chat) (s'.calls 0) pass) : Kept l₀ s' := by
  refine ⟨fun slug p' hp' => ?_, hcalls, hpass⟩
  have hmarks := hg.marks slug
  rw [hp', Option.map_some] at hmarks
  obtain ⟨p, hp, heq⟩ := Option.map_eq_some_iff.mp hmarks.symm
  obtain ⟨hchat, hcheck⟩ := Prod.mk.inj heq
  obtain ⟨p₀, hp₀, hchat₀, hsaved⟩ := hk.saved slug p hp
  have hslug : p.slug = p'.slug := (Providers.of_get hp).2.trans (Providers.of_get hp').2.symm
  have hc := hchats p.telegramChatId
  refine ⟨p₀, hp₀, hchat₀.trans hchat, ?_, ?_, ?_⟩
  · rw [← hcheck]
    exact hsaved.le
  · rw [← hcheck, ← hchat]
    exact hsaved.below.chat hc
  · intro id hid hx hle
    rw [← hchat] at hid ⊢
    rw [← hcheck] at hle
    rw [← hslug]
    exact hg.genuine (hsaved.genuine id (hsaved.below.has hc hid hx hle) hx hle)

lemma calls_setCall {calls : ℕ → Option Call}
    (hk : ∀ k call, calls k = some call → CallKept l call) {k : ℕ} {call : Option Call}
    (hcall : ∀ c, call = some c → CallKept l c) :
    ∀ k' call', setCall calls k call k' = some call' → CallKept l call' := by
  intro k' call' h
  unfold setCall at h
  split_ifs at h with hkk
  · exact hcall call' h
  · exact hk k' call' h

lemma Kept.store (hk : Kept l₀ s) (hpass : s.pass = some pass)
    (hphase : pass.phase = .persisting pageLen) (hlt : pass.res.checkpoint < pass.checkpoint) :
    Kept l₀ { s with
      ledger := (s.ledger.modifyProvider pass.provider.slug
        (SignalProvider.setCheckpoint pass.checkpoint)
        (SignalProvider.slug_setCheckpoint pass.checkpoint))
      pass := some ({ pass with
        provider := pass.provider.setCheckpoint pass.checkpoint
        res := { pass.res with
          checkpoint := pass.checkpoint
          lastProcessedId := pass.checkpoint } }.pageDone pageLen) } := by
  have h := hk.pass pass hpass
  have hp := h.phase
  unfold PhaseKept at hp
  rw [hphase] at hp
  obtain ⟨hat, hpast⟩ := hp
  have hroute : ∀ c, ((s.ledger.providers.modify pass.provider.slug
      (SignalProvider.setCheckpoint pass.checkpoint)
      (SignalProvider.slug_setCheckpoint pass.checkpoint)).forChat c).map SignalProvider.slug =
      (s.ledger.providers.forChat c).map SignalProvider.slug :=
    Providers.forChat_modify s.ledger.providers pass.provider.slug _ fun _ => rfl
  refine ⟨fun slug p' hp' => ?_, fun k call hcall => ?_, ?_⟩
  · dsimp only [Ledger.modifyProvider] at hp'
    rw [Providers.get_modify] at hp'
    split_ifs at hp' with hslug
    · obtain ⟨p, hp, rfl⟩ := Option.map_eq_some_iff.mp hp'
      obtain ⟨p₀, hp₀, hchat₀, hsaved⟩ := hk.saved slug p hp
      -- the provider of the pass, whose stored checkpoint is that of the pass
      have hstored := h.stored
      rw [← hslug, hp, Option.map_some, Option.some_inj] at hstored
      obtain ⟨hchat, hcheck⟩ := Prod.mk.inj hstored
      have hpslug : p.slug = pass.provider.slug := (Providers.of_get hp).2.trans hslug
      have hle := hsaved.le
      refine ⟨p₀, hp₀, hchat₀, ?_, ?_, ?_⟩
      · change p₀.checkpoint ≤ pass.checkpoint
        omega
      · change Below (s.chats p.telegramChatId) p₀.checkpoint pass.checkpoint
        rw [hchat]
        rcases hat.below with hF | ⟨id, hid, hF⟩
        · have := h.from_le
          have := hat.le
          omega
        · exact .inr ⟨id, hid, hat.le.trans hF⟩
      · intro id hid hx hto
        change (s.chats p.telegramChatId).Has id at hid
        change number id ≤ pass.checkpoint at hto
        change s.ledger.Genuine p.slug p.telegramChatId id
        by_cases hold : number id ≤ p.checkpoint
        · exact hsaved.genuine id hid hx hold
        · have hfrom := h.from_le
          have hF := hat.le
          rw [hpslug, hchat]
          rw [hchat] at hid
          refine (hat.covered id hid (by omega) (by omega)).resolve_right fun hbefore => ?_
          have := hat.unaccounted hbefore.1
          omega
    · obtain ⟨p₀, hp₀, hchat₀, hsaved⟩ := hk.saved slug p' hp'
      exact ⟨p₀, hp₀, hchat₀, hsaved.le, hsaved.below, hsaved.genuine⟩
  · have hold := hk.calls k call hcall
    exact ⟨(hroute _).trans hold.routed, hold.inHand⟩
  · intro pass' hpass'
    obtain rfl := Option.some.inj hpass'
    refine PassKept.pageDone ⟨(hroute _).trans h.routed, ?_, ?_, h.horizon, h.size, ?_⟩ ?_ hpast
    · have hstored := h.stored
      dsimp only [Ledger.modifyProvider]
      rw [SignalProvider.slug_setCheckpoint, Providers.get_modify, if_pos rfl]
      obtain ⟨p, hp, hmark⟩ := Option.map_eq_some_iff.mp hstored
      rw [hp, Option.map_some, Option.map_some]
      exact congrArg some (Prod.ext (Prod.mk.inj hmark).1 rfl)
    · exact h.from_le.trans hlt.le
    · unfold PhaseKept
      dsimp only
      rw [hphase]
      exact ⟨⟨hat.from_le, hat.below, le_refl _, hat.le, hat.unaccounted, hat.covered, hat.complete⟩,
        hpast⟩
    · exact ⟨hat.from_le, hat.below, le_refl _, hat.le, hat.unaccounted, hat.covered, hat.complete⟩

lemma Kept.genuine_of_done {raw : Message} {rest : List Message} {t : ℤ} (hk : Kept l₀ s)
    (hpass : s.pass = some pass)
    (hphase : pass.phase = .processing pageLen (raw :: rest) F K (some t)) {call : Call}
    (hcall : s.calls 0 = some call) {acq : AcquiredMessage} (hdone : call.phase = .done acq)
    (hacc : accounted (some acq) = true) :
    s.ledger.Genuine pass.provider.slug pass.chat raw.id := by
  have h := hk.pass pass hpass
  have hp := h.phase
  unfold PhaseKept at hp
  rw [hphase] at hp
  obtain ⟨-, hpage, hwait⟩ := hp
  obtain rfl : raw = call.message := Option.some.inj (hwait rfl call hcall)
  have hroute := (hk.calls 0 call hcall).routed
  have hchat := hpage.routed call.message List.mem_cons_self
  rw [hchat, h.routed, Option.some_inj] at hroute
  have hgenuine := (hk.calls 0 call hcall).genuine hdone hacc
  rwa [hchat, ← hroute] at hgenuine

lemma kept_advance (hk : Kept l₀ s) (hpass : s.pass = some pass) (attempts : List Attempt)
    (fault : Option Fault) (clock : ℤ) : Kept l₀ (advance s pass attempts fault clock) := by
  have h := hk.pass pass hpass
  have hg := Grows.refl s.ledger
  have hc := fun c => ChatGrows.refl (s.chats c)
  -- the pass moves on and nothing else does
  have hmove : ∀ {pass' : Pass}, pass'.chat = pass.chat →
      PassKept s.ledger (s.chats pass.chat) (s.calls 0) pass' →
      Kept l₀ { s with pass := some pass' } := by
    intro pass' hchat h'
    refine hk.next hg hc hk.calls fun p hp => ?_
    obtain rfl := Option.some.inj hp
    dsimp only
    rw [hchat]
    exact h'
  unfold advance
  cases hphase : pass.phase with
  | finished => exact hk
  | looping =>
    refine hmove ?_ (h.fetch hphase attempts clock)
    unfold Pass.fetch Pass.stop
    dsimp only
    repeat' split
    all_goals rfl
  | persisting pageLen =>
    have hp := h.phase
    unfold PhaseKept at hp
    rw [hphase] at hp
    dsimp only
    split
    · next hlt =>
      split
      · refine hk.next hg hc hk.calls fun p hp => ?_
        cases hp
      · exact hk.store hpass hphase hlt
    · exact hmove rfl (h.pageDone hp.1 hp.2)
  | processing pageLen rest F K waiting =>
    have hp := h.phase
    unfold PhaseKept at hp
    rw [hphase] at hp
    obtain ⟨hat, hpage, hwait⟩ := hp
    have haccount : ∀ {raw rest'} {acq : Option AcquiredMessage}, rest = raw :: rest' →
        (accounted acq = true → s.ledger.Genuine pass.provider.slug pass.chat raw.id) →
        ∀ (t : ℤ) (call' : Option Call), PassKept s.ledger (s.chats pass.chat) call'
          (pass.account pageLen raw rest' F K t acq) := by
      intro raw rest' acq heq hacc t call'
      rw [heq] at hphase
      exact h.account hphase hacc t call'
    cases rest with
    | nil =>
      refine hmove rfl ⟨h.routed, h.stored, h.from_le, h.horizon, h.size, hat, fun hlen id hid => ?_⟩
      by_cases hF : F < number id
      · rcases hpage.next id hid hF with ⟨m, hm, -⟩ | ⟨-, hafter⟩
        · cases hm
        · exact .inr (hafter hlen)
      · exact .inl (not_lt.mp hF)
    | cons raw rest =>
      cases waiting with
      | none =>
        dsimp only
        split
        · exact hmove rfl (h.stop (by decide) _)
        · split
          · exact hmove rfl (haccount rfl (fun hacc => by cases hacc) clock _)
          · next provider hprovider =>
            split
            · exact hmove rfl (haccount rfl (fun hacc => by cases hacc) clock _)
            · refine hk.next hg hc ?_ ?_
              · refine calls_setCall hk.calls fun call hcall => ?_
                obtain rfl := Option.some.inj hcall
                refine ⟨by rw [hprovider]; rfl, ?_⟩
                rintro acq (hacq | hacq | hacq | hacq) <;> cases hacq
              · intro p hp
                obtain rfl := Option.some.inj hp
                refine ⟨h.routed, h.stored, h.from_le, h.horizon, h.size, hat,
                  ⟨hpage.ordered, hpage.above, hpage.routed, hpage.has, hpage.next⟩,
                  fun _ running hrunning => ?_⟩
                dsimp only at hrunning
                rw [setCall_self, Option.some_inj] at hrunning
                rw [← hrunning]
                rfl
      | some t =>
        have hend : ∀ {pass' : Pass}, pass'.chat = pass.chat →
            PassKept s.ledger (s.chats pass.chat) none pass' →
            Kept l₀ { s with
              calls := setCall s.calls 0 none
              pass := some pass' } := by
          intro pass' hchat h'
          refine hk.next hg hc (calls_setCall hk.calls fun call hcall => by cases hcall) fun p hp => ?_
          obtain rfl := Option.some.inj hp
          dsimp only
          rw [hchat, setCall_self]
          exact h'
        dsimp only
        split
        · next acq hdone =>
          obtain ⟨call, hcall, hcallPhase⟩ := Option.map_eq_some_iff.mp hdone
          exact hend rfl
            (haccount rfl (hk.genuine_of_done hpass hphase hcall hcallPhase) t none)
        · exact hend rfl ((h.call fun running' hrunning' => by cases hrunning').stop (by decide) _)
        · exact hk

lemma chatGrows_post (chat : Chat) (message : Message) : ChatGrows chat (chat.post message) := by
  unfold Chat.post
  split
  · next hnew =>
    refine ⟨fun id ⟨m, hm, hid⟩ => ⟨m, List.mem_append_left _ hm, hid⟩, fun id ⟨m, hm, hid⟩ => ?_⟩
    rcases List.mem_append.mp hm with hm | hm
    · exact .inl ⟨m, hm, hid⟩
    · right
      rintro id' ⟨m', hm', rfl⟩
      rw [List.mem_singleton.mp hm] at hid
      rw [← hid]
      exact hnew m' hm'
  · exact ChatGrows.refl chat

lemma chatGrows_edit (chat : Chat) (message : Message) : ChatGrows chat (chat.edit message) := by
  have hid : ∀ m : Message, (if m.id = message.id then message else m).id = m.id := by
    intro m
    split_ifs with h
    · exact h.symm
    · rfl
  refine ⟨?_, ?_⟩
  · rintro id ⟨m, hm, rfl⟩
    exact ⟨_, List.mem_map_of_mem hm, hid m⟩
  · rintro id ⟨m', hm', rfl⟩
    obtain ⟨m, hm, rfl⟩ := List.mem_map.mp hm'
    exact .inl ⟨m, hm, (hid m).symm⟩

lemma Kept.chat (hk : Kept l₀ s) {chat : Chat} (hc : ChatGrows (s.chats c) chat) :
    Kept l₀ { s with chats := setChat s.chats c chat } := by
  have hchats : ∀ c', ChatGrows (s.chats c') (setChat s.chats c chat c') := by
    intro c'
    unfold setChat
    split_ifs with h
    · rw [h]
      exact hc
    · exact ChatGrows.refl _
  exact hk.next (Grows.refl _) hchats hk.calls fun pass hpass =>
    (hk.pass pass hpass).chat (hchats pass.chat)

lemma bound_pos (given : Option ℤ) {default : ℕ} (h : 0 < default) : 0 < bound given default := by
  unfold bound
  split
  · exact h
  · split <;> omega

lemma kept_step (env : Env) (hk : Kept l₀ s) (a : Action) : Kept l₀ (step env s a) := by
  have hg := Grows.refl s.ledger
  have hc := fun c => ChatGrows.refl (s.chats c)
  unfold step
  cases a with
  | catchUp chat pageSize maxPages timeBudget dryRun clock =>
    dsimp only
    split
    · exact hk
    split
    · exact hk
    · next provider hprovider =>
      refine hk.next hg hc hk.calls fun pass hpass => ?_
      obtain rfl := Option.some.inj hpass
      obtain ⟨hget, hchat⟩ := Providers.get_of_forChat hprovider
      have hat : ∀ id, (s.chats chat).Has id → provider.checkpoint < number id →
          number id ≤ provider.checkpoint → s.ledger.Genuine provider.slug chat id ∨
            ((0 : ℤ) ≠ 0 ∧ 0 ≤ number id) := fun id _ h1 h2 => absurd h1 (not_lt_of_ge h2)
      refine ⟨congrArg (Option.map SignalProvider.slug) hprovider, ?_, le_refl _,
        .inl (le_refl _), bound_pos pageSize (by decide), ?_⟩
      · dsimp only [Pass.begin]
        rw [hget, Option.map_some, hchat]
      · exact ⟨le_refl _, .inl (le_refl _), le_refl _, le_refl _, fun h => absurd rfl h, hat, rfl⟩
  | advance attempts fault clock =>
    dsimp only
    split
    · exact hk
    · next pass hpass => exact kept_advance hk hpass attempts fault clock
  | deliver k message clock =>
    dsimp only
    split
    · next provider hprovider hfree =>
      refine hk.next hg hc (calls_setCall hk.calls fun call hcall => ?_) fun pass hpass => ?_
      · obtain rfl := Option.some.inj hcall
        refine ⟨by rw [hprovider]; rfl, ?_⟩
        rintro acq (hacq | hacq | hacq | hacq) <;> cases hacq
      · dsimp only
        rw [setCall_of_ne _ _ (Nat.succ_ne_zero k).symm]
        exact hk.pass pass hpass
    · exact hk
  | acquire k fault clock =>
    dsimp only
    split
    · exact hk
    · next call hcall =>
      have hgrow := grows_callStep env s.ledger call fault clock
      refine hk.next hgrow hc (calls_setCall (fun k' call' h => (hk.calls k' call' h).grow hgrow)
        fun call' hcall' => ?_) fun pass hpass => ?_
      · obtain rfl := Option.some.inj hcall'
        exact (hk.calls k call hcall).step fault clock
      · refine ((hk.pass pass hpass).grow hgrow).call fun running' hrunning' => ?_
        dsimp only [setCall] at hrunning'
        split_ifs at hrunning' with hk0
        · obtain rfl := Option.some.inj hrunning'
          exact ⟨call, hk0 ▸ hcall, rfl⟩
        · exact ⟨running', hrunning', rfl⟩
  | die k =>
    refine hk.next hg hc (calls_setCall hk.calls fun call hcall => by cases hcall) fun pass hpass => ?_
    dsimp only
    rw [setCall_of_ne _ _ (Nat.succ_ne_zero k).symm]
    exact hk.pass pass hpass
  | crash =>
    refine hk.next hg hc (fun k call hcall => ?_) fun pass hpass => ?_
    · cases hcall
    · cases hpass
  | setStatus slug status =>
    have hgrow := grows_modifyProvider s.ledger slug (f := SignalProvider.setStatus status)
      (fun _ => rfl) (fun _ => rfl) fun _ => rfl
    exact hk.next hgrow hc (fun k call h => (hk.calls k call h).grow hgrow) fun pass hpass =>
      (hk.pass pass hpass).grow hgrow
  | post c message => exact hk.chat (chatGrows_post _ _)
  | edit c message => exact hk.chat (chatGrows_edit _ _)

lemma kept_start (ledger : Ledger) (chats : String → Chat) : Kept ledger (start ledger chats) := by
  refine ⟨fun slug p hp => ⟨p, hp, rfl, le_refl _, .inl (le_refl _), ?_⟩, ?_, ?_⟩
  · intro id _ h1 h2
    exact absurd h1 (not_lt_of_ge h2)
  · intro k call hcall
    cases hcall
  · intro pass hpass
    cases hpass

/-! ### No message is lost -/

/-- The messages of a chat that are accounted for: those past the checkpoint that the provider of the
slug began with, up to the number `y`. -/
def Recorded (l₀ : Ledger) (s : State) (slug : String) (y : ℤ) : Prop :=
  ∀ p₀, l₀.providers.get slug = some p₀ → ∀ m ∈ (s.chats p₀.telegramChatId).messages,
    p₀.checkpoint < m.number → m.number ≤ y → s.ledger.Genuine slug p₀.telegramChatId m.id

def Ledger.checkpoint (ledger : Ledger) (slug : String) : Option ℤ :=
  (ledger.providers.get slug).map SignalProvider.checkpoint

/-- What catching up guarantees in a state: the messages up to every stored checkpoint have genuine
rows, and a pass that reports to be durably complete has left none behind that was in the chat when its
last page was fetched. -/
structure NoneLost (l₀ : Ledger) (s : State) : Prop where
  stored : ∀ slug y, s.ledger.checkpoint slug = some y → Recorded l₀ s slug y
  complete : ∀ pass, s.pass = some pass → pass.phase = .finished →
    pass.res.durablyComplete = true → Recorded l₀ s pass.provider.slug pass.horizon

lemma Kept.noneLost (hk : Kept l₀ s) : NoneLost l₀ s := by
  have hstored : ∀ slug y, s.ledger.checkpoint slug = some y → Recorded l₀ s slug y := by
    intro slug y hy p₀ hp₀ m hm hx hle
    obtain ⟨p, hp, rfl⟩ := Option.map_eq_some_iff.mp hy
    obtain ⟨p₀', hp₀', hchat, hsaved⟩ := hk.saved slug p hp
    obtain rfl : p₀ = p₀' := Option.some.inj (hp₀.symm.trans hp₀')
    have hgenuine := hsaved.genuine m.id ⟨m, hchat ▸ hm, rfl⟩ hx hle
    rwa [(Providers.of_get hp).2, ← hchat] at hgenuine
  refine ⟨hstored, fun pass hpass hfinished hdurable p₀ hp₀ m hm hx hle => ?_⟩
  have h := hk.pass pass hpass
  have hp := h.phase
  unfold PhaseKept at hp
  rw [hfinished] at hp
  unfold CatchupResult.durablyComplete at hdurable
  rw [Bool.and_eq_true, decide_eq_true_eq, decide_eq_true_eq] at hdurable
  obtain ⟨hat, hpast⟩ := hp hdurable.1
  obtain ⟨p, hget, hmark⟩ := Option.map_eq_some_iff.mp h.stored
  obtain ⟨hchat, hcheck⟩ := Prod.mk.inj hmark
  obtain ⟨p₀', hp₀', hchat₀, -⟩ := hk.saved pass.provider.slug p hget
  obtain rfl : p₀ = p₀' := Option.some.inj (hp₀.symm.trans hp₀')
  have hchatPass : p₀.telegramChatId = pass.chat := hchat₀.trans hchat
  by_cases hold : m.number ≤ pass.res.fromCheckpoint
  · have hsaved : s.ledger.checkpoint pass.provider.slug = some pass.res.checkpoint := by
      unfold Ledger.checkpoint
      rw [hget, Option.map_some, hcheck]
    exact hstored pass.provider.slug _ hsaved p₀ hp₀ m hm hx (hold.trans h.from_le)
  · rw [hchatPass] at hm ⊢
    have hhas : (s.chats pass.chat).Has m.id := ⟨m, hm, rfl⟩
    refine (hat.covered m.id hhas (not_le.mp hold) (hpast m.id hhas hle)).resolve_right fun hun => ?_
    exact hun.1 hdurable.2

lemma checkpoint_step (env : Env) (hk : Kept l₀ s) (a : Action)
    (hy : s.ledger.checkpoint slug = some y) :
    ∃ y', (step env s a).ledger.checkpoint slug = some y' ∧ y ≤ y' := by
  have hgrow : ∀ {l' : Ledger}, Grows s.ledger l' → ∃ y', l'.checkpoint slug = some y' ∧ y ≤ y' := by
    intro l' hg
    obtain ⟨p, hp, rfl⟩ := Option.map_eq_some_iff.mp hy
    have hmarks := hg.marks slug
    rw [hp, Option.map_some] at hmarks
    obtain ⟨p', hp', heq⟩ := Option.map_eq_some_iff.mp hmarks
    refine ⟨p.checkpoint, ?_, le_refl _⟩
    unfold Ledger.checkpoint
    rw [hp', Option.map_some, (Prod.mk.inj heq).2]
  have hsame := hgrow (Grows.refl s.ledger)
  unfold step
  cases a with
  | catchUp chat pageSize maxPages timeBudget dryRun clock =>
    dsimp only
    repeat' split
    all_goals exact hsame
  | advance attempts fault clock =>
    dsimp only
    split
    · exact hsame
    · next pass hpass =>
      unfold advance
      split
      case h_6 pageLen =>
        split
        · next hlt =>
          split
          · exact hsame
          · obtain ⟨p, hp, rfl⟩ := Option.map_eq_some_iff.mp hy
            dsimp only [Ledger.checkpoint, Ledger.modifyProvider]
            rw [Providers.get_modify, hp]
            split_ifs with hslug
            · refine ⟨pass.checkpoint, rfl, ?_⟩
              have hstored := (hk.pass pass hpass).stored
              rw [← hslug, hp, Option.map_some, Option.some_inj] at hstored
              have := (Prod.mk.inj hstored).2
              omega
            · exact ⟨p.checkpoint, rfl, le_refl _⟩
        · exact hsame
      all_goals
        repeat' split
        all_goals exact hsame
  | deliver k message clock =>
    dsimp only
    repeat' split
    all_goals exact hsame
  | acquire k fault clock =>
    dsimp only
    split
    · exact hsame
    · exact hgrow (grows_callStep env s.ledger _ fault clock)
  | die k => exact hsame
  | crash => exact hsame
  | setStatus slug' status =>
    exact hgrow (grows_modifyProvider s.ledger slug' (f := SignalProvider.setStatus status)
      (fun _ => rfl) (fun _ => rfl) fun _ => rfl)
  | post c message => exact hsame
  | edit c message => exact hsame

/-- Whatever the passes run into, whatever else happens and in whatever order, no message past the
first checkpoint is lost, and no step lowers a stored checkpoint. -/
theorem catchUp_losesNothing (env : Env) (ledger : Ledger) (chats : String → Chat)
    (as : List Action) :
    NoneLost ledger (run (step env) (start ledger chats) as) ∧
    ∀ a slug y, (run (step env) (start ledger chats) as).ledger.checkpoint slug = some y →
      ∃ y', (step env (run (step env) (start ledger chats) as) a).ledger.checkpoint slug = some y' ∧
        y ≤ y' := by
  have hk : Kept ledger (run (step env) (start ledger chats) as) :=
    run_invariant (P := Kept ledger) (fun s a h => kept_step env h a) (kept_start ledger chats) as
  exact ⟨hk.noneLost, fun a slug y hy => checkpoint_step env hk a hy⟩

/-- A provider whose first checkpoint is past the only message of its chat. -/
def lateProvider : SignalProvider where
  slug := "wayond"
  telegramChatId := "-100"
  status := .armed
  parserProfile := "wayond"
  catchupCheckpointMessageId := some 10

def lateLedger : Ledger where
  providers := ⟨[lateProvider], List.pairwise_singleton _ _⟩

def lateChat : Chat where
  messages := [{ id := 5, chatId := "-100", text := "hello", date := some 0 }]
  ascending := List.pairwise_singleton _ _

def quietEnv : Env where
  parse _ _ _ := none
  digest text := text

/-- The pass over it finds nothing and is durably complete. -/
def lateRun : State :=
  run (step quietEnv) (start lateLedger fun _ => lateChat)
    [.catchUp "-100" none none none false 0, .advance [.fetched] none 0]

/-- A durably complete pass has not acquired what is below the first checkpoint. -/
theorem catchUp_skipsBelowCheckpoint : ¬ ∀ (env : Env) (ledger : Ledger) (chats : String → Chat)
    (as : List Action) (pass : Pass), (run (step env) (start ledger chats) as).pass = some pass →
      pass.phase = .finished → pass.res.durablyComplete = true →
      ∀ m ∈ ((run (step env) (start ledger chats) as).chats pass.chat).messages,
        m.number ≤ pass.horizon → (run (step env) (start ledger chats) as).ledger.Genuine
          pass.provider.slug pass.chat m.id := by
  intro h
  have hpass : ∃ pass, lateRun.pass = some pass ∧ pass.phase = .finished ∧
      pass.res.durablyComplete = true ∧ pass.horizon = 5 := ⟨_, rfl, rfl, by decide, rfl⟩
  obtain ⟨pass, hrun, hfinished, hdurable, hhorizon⟩ := hpass
  have hgenuine := h quietEnv lateLedger (fun _ => lateChat)
    [.catchUp "-100" none none none false 0, .advance [.fetched] none 0] pass hrun hfinished hdurable
    _ List.mem_cons_self (by rw [hhorizon]; decide)
  exact Bool.false_ne_true hgenuine

end SignalIntake
end GuvFX
