/-
# The approval, the ledger row and the notification of one message

Live delivery, catching up and replays acquire one message in calls that overlap, fail and die.  What
holds of a message in every run: there is one approval and one genuine row of it at most, the row is
linked to the approval exactly when its outcome is an intake, one notification at most carries the row,
and an approval comes from a call that began when the source was live, in its chat, and the message
fresh.

If the calls for the message do not overlap and none is lost after its approval was created, an approval
ends with its row and its notification, unless an edit has surfaced it.
-/
import GuvFX.SignalIntake.Listener

namespace GuvFX
namespace SignalIntake

open Runs

def ApprovalKey.genuine (I : ApprovalKey) : AcquiredKey := ⟨I.source, I.chatId, I.messageId, false⟩

/-- Whether a call is between its row and its notification. -/
def Phase.telling : Phase → Bool
  | .bookkeeping _ | .notifying _ => true
  | _ => false

/-- Whether a call has found no row and not yet tried to write one. -/
def Phase.reserved : Phase → Bool
  | .classifying | .intaking _ _ | .creating _ _ | .writing _ _ _ => true
  | _ => false

/-- Whether a call is about to write a row that is linked to an approval. -/
def Phase.linking : Phase → Bool
  | .writing _ _ approval => approval.isSome
  | _ => false

/-- Whether a call has an approval that it has not notified yet. -/
def Phase.committed : Phase → Bool
  | .writing _ _ approval => approval.isSome
  | .bookkeeping acq | .notifying acq => acq.approval.isSome
  | _ => false

def Phase.ended : Phase → Bool
  | .done _ | .raised => true
  | _ => false

variable {env : Env} {l l' : Ledger} {call : Call} {I : ApprovalKey}

lemma Call.key_of_genuine (h : call.nonGenuine = false) : call.key = call.approvalKey.genuine := by
  unfold Call.key
  rw [h]
  rfl

lemma Call.genuine_of_key (h : call.key = I.genuine) :
    call.nonGenuine = false ∧ call.approvalKey = I := by
  obtain ⟨hslug, hchat, hmid, hgenuine⟩ := AcquiredKey.mk.inj h
  exact ⟨hgenuine, by cases I; exact congr (congr (congrArg ApprovalKey.mk hslug) hchat) hmid⟩

/-! ### What one step of a call does -/

/-- What a call knows of itself and of the store, at each point of it. -/
def CallOk (env : Env) (l : Ledger) (call : Call) : Prop :=
  match call.phase with
  | .opening => True
  | .amending existing => l.acquired.get call.key = some existing ∧ call.nonGenuine = false
  | .classifying => chatIdentityRefusal call.provider call.message.chatId = none
  | .intaking parsed edited | .creating parsed edited =>
    call.nonGenuine = false ∧
      classify env call.provider call.message call.now = .tradeable parsed edited
  | .writing outcome _ approval =>
    (approval = none ∧ outcome ≠ .intaken) ∨
      (approval = some call.approvalKey ∧ outcome = .intaken ∧ call.nonGenuine = false ∧
        (l.approvals.get call.approvalKey).isSome)
  | .bookkeeping acq | .notifying acq => l.acquired.get call.key = some acq
  | .done _ | .raised => True

inductive Moves (env : Env) (l : Ledger) (call : Call) (fault : Option Fault) :
    Ledger → Phase → Prop
  /-- Nothing is written. -/
  | quiet {phase' : Phase} (hok : CallOk env l { call with phase := phase' })
      (hquiet : phase'.telling = false)
      (hlook : phase'.reserved = true → call.phase.reserved = true ∨ l.acquired.get call.key = none)
      (htell : fault = none → call.phase.telling = false)
      (hlink : fault = none → call.phase.linking = true → l.acquired.get call.key ≠ none) :
      Moves env l call fault l phase'
  | amend {existing : AcquiredMessage} (hphase : call.phase = .amending existing) :
      Moves env l call fault
        (recordAmendment env l call.provider existing call.message call.now) (.done existing)
  | create {parsed : ParsedSignal} {edited : Bool}
      {approvals : Rows PendingSignalApproval PendingSignalApproval.key}
      (hphase : call.phase = .creating parsed edited)
      (hins : l.approvals.insert (approvalFor call.approvalKey parsed edited) = some approvals) :
      Moves env l call fault { l with approvals := approvals }
        (.writing .intaken (reviewReason edited) (some call.approvalKey))
  | write {outcome : Outcome} {reason : String} {approval : Option ApprovalKey} {clock : ℤ}
      {acquired : Rows AcquiredMessage AcquiredMessage.key} {phase' : Phase}
      (hphase : call.phase = .writing outcome reason approval)
      (hins : l.acquired.insert (call.row outcome reason approval clock) = some acquired)
      (hnext : phase' = .notifying (call.row outcome reason approval clock) ∨
        phase' = .bookkeeping (call.row outcome reason approval clock)) :
      Moves env l call fault { l with acquired := acquired } phase'
  | book {acq : AcquiredMessage} {providers : Providers} (hphase : call.phase = .bookkeeping acq) :
      Moves env l call fault { l with providers := providers } (.notifying acq)
  | tell {acq : AcquiredMessage} (hphase : call.phase = .notifying acq) :
      Moves env l call fault { l with notifications := l.notifications ++
        [⟨call.provider.slug, acq.key, acq.approval, acq.outcome⟩] } (.done acq)

lemma classify_tradeable {provider : SignalProvider} {message : Message} {now : ℤ}
    {parsed : ParsedSignal} {edited : Bool}
    (h : classify env provider message now = .tradeable parsed edited) :
    provider.isArmed = true ∧ withinAcquisitionWindow provider message.date now = true ∧
      env.parse provider.parserProfile message.text message.mid = some parsed ∧
      parsed.isTradeableShape = true ∧ signalExpired parsed now = false := by
  unfold classify at h
  split at h
  · cases h
  next harmed =>
  split at h
  · cases h
  next date hdate =>
  split at h
  · cases h
  next hage =>
  split at h
  · cases h
  split at h
  · cases h
  next parsed' hparsed =>
  split at h
  next hshape =>
    split at h
    · cases h
    next hexpired =>
      cases h
      refine ⟨by simpa using harmed, ?_, hparsed, hshape, by simpa using hexpired⟩
      rw [hdate]
      exact decide_eq_true (not_lt.mp hage)
  next =>
    split at h
    · cases h
    · cases h

lemma classify_recorded {provider : SignalProvider} {message : Message} {now : ℤ} {outcome : Outcome}
    {reason : String} (h : classify env provider message now = .recorded outcome reason) :
    outcome ≠ .intaken := by
  unfold classify at h
  repeat' split at h
  all_goals first
    | (cases h; decide)
    | cases h

lemma nonGenuine_of_trusted (harmed : call.provider.isArmed = true)
    (htrust : chatIdentityRefusal call.provider call.message.chatId = none) :
    call.nonGenuine = false := by
  unfold Call.nonGenuine
  rw [harmed, htrust]
  rfl

lemma moves_callStep (hok : CallOk env l call) (fault : Option Fault) (clock : ℤ) :
    Moves env l call fault (callStep env l call fault clock).1
      (callStep env l call fault clock).2 := by
  unfold CallOk at hok
  unfold callStep
  have hraised : ∀ {reason : String}, call.phase.reserved = true → call.phase.linking = false →
      call.phase.telling = false →
      Moves env l call fault l (.writing .quarantined reason none) := by
    intro reason hres hlink htell
    exact .quiet (.inl ⟨rfl, by decide⟩) rfl (fun _ => .inl hres) (fun _ => htell)
      fun _ h => by rw [hlink] at h; cases h
  cases hphase : call.phase with
  | opening =>
    have htell : fault = none → call.phase.telling = false := fun _ => by rw [hphase]; rfl
    have hlink : fault = none → call.phase.linking = true → l.acquired.get call.key ≠ none :=
      fun _ h => by rw [hphase] at h; cases h
    dsimp only
    split
    · exact .quiet trivial rfl (fun h => by cases h) htell hlink
    split
    · next existing hexisting =>
      split
      · next hamend =>
        rw [Bool.and_eq_true, Bool.and_eq_true, Option.isNone_iff_eq_none] at hamend
        exact .quiet ⟨hexisting, nonGenuine_of_trusted hamend.1.1 hamend.1.2⟩ rfl
          (fun h => by cases h) htell hlink
      · exact .quiet trivial rfl (fun h => by cases h) htell hlink
    · next hnone =>
      split
      · exact .quiet (.inl ⟨rfl, by decide⟩) rfl (fun _ => .inr hnone) htell hlink
      · next htrust => exact .quiet htrust rfl (fun _ => .inr hnone) htell hlink
  | amending existing =>
    have htell : fault = none → call.phase.telling = false := fun _ => by rw [hphase]; rfl
    have hlink : fault = none → call.phase.linking = true → l.acquired.get call.key ≠ none :=
      fun _ h => by rw [hphase] at h; cases h
    dsimp only
    split
    · exact .quiet trivial rfl (fun h => by cases h) htell hlink
    · exact .quiet trivial rfl (fun h => by cases h) htell hlink
    · exact .amend hphase
  | classifying =>
    rw [hphase] at hok hraised
    have htell : fault = none → call.phase.telling = false := fun _ => by rw [hphase]; rfl
    have hlink : fault = none → call.phase.linking = true → l.acquired.get call.key ≠ none :=
      fun _ h => by rw [hphase] at h; cases h
    have hres : call.phase.reserved = true := by rw [hphase]; rfl
    dsimp only
    split
    · exact hraised rfl rfl rfl
    split
    · next hverdict =>
      exact .quiet (.inl ⟨rfl, classify_recorded hverdict⟩) rfl (fun _ => .inl hres) htell hlink
    · next hverdict =>
      have hgenuine := nonGenuine_of_trusted (classify_tradeable hverdict).1 hok
      exact .quiet ⟨hgenuine, hverdict⟩ rfl (fun _ => .inl hres) htell hlink
  | intaking parsed edited =>
    rw [hphase] at hok hraised
    have htell : fault = none → call.phase.telling = false := fun _ => by rw [hphase]; rfl
    have hlink : fault = none → call.phase.linking = true → l.acquired.get call.key ≠ none :=
      fun _ h => by rw [hphase] at h; cases h
    have hres : call.phase.reserved = true := by rw [hphase]; rfl
    dsimp only
    split
    · exact hraised rfl rfl rfl
    split
    · next hfound =>
      refine .quiet (.inr ⟨rfl, rfl, hok.1, ?_⟩) rfl (fun _ => .inl hres) htell hlink
      change (l.approvals.get call.approvalKey).isSome = true
      rw [hfound]
      rfl
    · exact .quiet hok rfl (fun _ => .inl hres) htell hlink
  | creating parsed edited =>
    rw [hphase] at hraised
    dsimp only
    split
    · exact hraised rfl rfl rfl
    split
    · exact hraised rfl rfl rfl
    · next hins => exact .create hphase hins
  | writing outcome reason approval =>
    have htell : fault = none → call.phase.telling = false := fun _ => by rw [hphase]; rfl
    dsimp only
    split
    · next hfault =>
      exact .quiet trivial rfl (fun h => by cases h) htell
        fun h => by rw [h] at hfault; cases hfault
    split
    · next hins =>
      -- the key is in use
      obtain ⟨row, hrow, hkey⟩ := Rows.insert_eq_none_iff.mp hins
      have hget : l.acquired.get call.key = some row := Rows.get_eq_some_iff.mpr ⟨hrow, hkey⟩
      rw [hget]
      exact .quiet trivial rfl (fun h => by cases h) htell fun _ _ h => by rw [hget] at h; cases h
    · next hins =>
      refine .write hphase hins ?_
      split
      · exact .inl rfl
      · exact .inr rfl
  | bookkeeping acq =>
    dsimp only
    split
    · next hfault =>
      refine .quiet trivial rfl (fun h => by cases h) (fun h => ?_) fun h => ?_
      · rw [h] at hfault
        cases hfault
      · rw [h] at hfault
        cases hfault
    · exact .book hphase
  | notifying acq => exact .tell hphase
  | done acq =>
    exact .quiet trivial rfl (fun h => by cases h) (fun _ => by rw [hphase]; rfl)
      fun _ h => by rw [hphase] at h; cases h
  | raised =>
    exact .quiet trivial rfl (fun h => by cases h) (fun _ => by rw [hphase]; rfl)
      fun _ h => by rw [hphase] at h; cases h

/-! ### The store after a step -/

/-- No row and no approval is lost. -/
structure Later (l l' : Ledger) : Prop where
  acquired : ∀ key row, l.acquired.get key = some row → l'.acquired.get key = some row
  approvals : ∀ key, (l.approvals.get key).isSome = true → (l'.approvals.get key).isSome = true

lemma Later.refl (l : Ledger) : Later l l := ⟨fun _ _ h => h, fun _ h => h⟩

lemma CallOk.later (hok : CallOk env l call) (h : Later l l') : CallOk env l' call := by
  unfold CallOk at hok ⊢
  cases hphase : call.phase with
  | amending existing =>
    rw [hphase] at hok
    exact ⟨h.acquired _ _ hok.1, hok.2⟩
  | writing outcome reason approval =>
    rw [hphase] at hok
    exact hok.imp_right fun hok => ⟨hok.1, hok.2.1, hok.2.2.1, h.approvals _ hok.2.2.2⟩
  | bookkeeping acq =>
    rw [hphase] at hok
    exact h.acquired _ _ hok
  | notifying acq =>
    rw [hphase] at hok
    exact h.acquired _ _ hok
  | opening => trivial
  | classifying => rwa [hphase] at hok
  | intaking parsed edited => rwa [hphase] at hok
  | creating parsed edited => rwa [hphase] at hok
  | done acq => trivial
  | raised => trivial

lemma key_approvalFor (key : ApprovalKey) (parsed : ParsedSignal) (edited : Bool) :
    (approvalFor key parsed edited).key = key := by
  unfold approvalFor
  split <;> rfl

/-- Whether an edit of a message has surfaced an approval. -/
def Ledger.surfaced (ledger : Ledger) (key : AcquiredKey) : Prop :=
  ∃ amendment ∈ ledger.amendments.rows, amendment.original = key ∧ amendment.newApproval = true

lemma isSome_insertOrIgnore (approvals : Rows PendingSignalApproval PendingSignalApproval.key)
    (approval : PendingSignalApproval) (key : ApprovalKey) :
    ((approvals.insertOrIgnore approval).get key).isSome = true ↔
      approval.key = key ∨ (approvals.get key).isSome = true := by
  rw [Rows.get_insertOrIgnore]
  split_ifs with h
  · exact iff_of_true rfl (.inl h)
  · exact ⟨.inr, fun h' => h'.resolve_left h⟩

/-- What the record of an edit leaves behind. -/
structure Amended (env : Env) (call : Call) (original : AcquiredMessage) (l l' : Ledger) : Prop where
  acquired : l'.acquired = l.acquired
  notifications : l'.notifications = l.notifications
  amendments : ∀ amendment ∈ l.amendments.rows, amendment ∈ l'.amendments.rows
  approvals : ∀ key, (l.approvals.get key).isSome = true → (l'.approvals.get key).isSome = true
  /-- A new approval is for the message, which was fresh, and is on record. -/
  surfaced : ∀ key, (l'.approvals.get key).isSome = true → (l.approvals.get key).isSome = true ∨
    (key = ⟨call.provider.slug, original.key.chatId, call.message.mid⟩ ∧ l'.surfaced original.key ∧
      withinAcquisitionWindow call.provider call.message.date call.now = true ∧
      ∃ parsed, env.parse call.provider.parserProfile call.message.text call.message.mid = some parsed ∧
        parsed.isTradeableShape = true ∧ signalExpired parsed call.now = false)

lemma amended_refl (env : Env) (call : Call) (original : AcquiredMessage) (l : Ledger) :
    Amended env call original l l := ⟨rfl, rfl, fun _ h => h, fun _ h => h, fun _ h => .inl h⟩

lemma amended_recordAmendment (env : Env) (l : Ledger) (call : Call) (original : AcquiredMessage) :
    Amended env call original l
      (recordAmendment env l call.provider original call.message call.now) := by
  unfold recordAmendment
  dsimp only
  split
  · exact amended_refl env call original l
  next hnone =>
  have hrows : ∀ amendment : MessageAmendment,
      amendment.key = (original.key, env.digest call.message.text) →
      (l.amendments.insertOrIgnore amendment).rows = l.amendments.rows ++ [amendment] := by
    intro amendment hkey
    exact Rows.insertOrIgnore_of_fresh (hkey ▸ hnone)
  have hkept : ∀ amendment : MessageAmendment,
      amendment.key = (original.key, env.digest call.message.text) →
      ∀ old ∈ l.amendments.rows, old ∈ (l.amendments.insertOrIgnore amendment).rows := by
    intro amendment hkey old hold
    rw [hrows amendment hkey]
    exact List.mem_append_left _ hold
  cases happroval : original.approval.bind l.approvals.get with
  | some a =>
    have hflag : ∀ key : ApprovalKey,
        ((l.approvals.modify (flagged a.key) (key_flagged a.key)).get key).isSome =
          (l.approvals.get key).isSome := by
      intro key
      rw [Rows.get_modify, Option.isSome_map]
    have hend : ∀ (amendment : MessageAmendment) (flag : Bool),
        amendment.key = (original.key, env.digest call.message.text) →
        Amended env call original l
          (if flag then
            { l with
              amendments := l.amendments.insertOrIgnore amendment
              approvals := l.approvals.modify (flagged a.key) (key_flagged a.key) }
          else { l with amendments := l.amendments.insertOrIgnore amendment }) := by
      intro amendment flag hkey
      split
      · exact ⟨rfl, rfl, hkept _ hkey, fun key h => (hflag key).trans h,
          fun key h => .inl ((hflag key).symm.trans h)⟩
      · exact ⟨rfl, rfl, hkept _ hkey, fun _ h => h, fun _ h => .inl h⟩
    cases hparsed : env.parse call.provider.parserProfile call.message.text call.message.mid with
    | none => exact hend _ _ rfl
    | some parsed => exact hend _ _ rfl
  | none =>
    cases hparsed : env.parse call.provider.parserProfile call.message.text call.message.mid with
    | none => exact ⟨rfl, rfl, hkept _ rfl, fun _ h => h, fun _ h => .inl h⟩
    | some parsed =>
      dsimp only
      split
      · next hnew =>
        have hfresh := hnew
        rw [Bool.and_eq_true, Bool.and_eq_true, Bool.and_eq_true] at hfresh
        obtain ⟨⟨⟨hshape, -⟩, hexpiry⟩, hwindow⟩ := hfresh
        refine ⟨rfl, rfl, hkept _ rfl, fun key h => ?_, fun key h => ?_⟩
        · exact (isSome_insertOrIgnore _ _ key).mpr (.inr h)
        · rcases (isSome_insertOrIgnore _ _ key).mp h with hkey | hold
          · rw [key_approvalFor] at hkey
            have hsurfaced : ∀ amendment : MessageAmendment,
                amendment.key = (original.key, env.digest call.message.text) →
                amendment.newApproval = true →
                ∃ row ∈ (l.amendments.insertOrIgnore amendment).rows,
                  row.original = original.key ∧ row.newApproval = true := by
              intro amendment hamendment hflagged
              refine ⟨amendment, ?_, (Prod.mk.inj hamendment).1, hflagged⟩
              rw [hrows amendment hamendment]
              exact List.mem_append_right _ (List.mem_singleton_self _)
            exact .inr ⟨hkey.symm, hsurfaced _ rfl hnew, hwindow, parsed, hparsed, hshape,
              by simpa using hexpiry⟩
          · exact .inl hold
      · exact ⟨rfl, rfl, hkept _ rfl, fun _ h => h, fun _ h => .inl h⟩

namespace Moves

variable {fault : Option Fault} {phase' : Phase}

lemma later (h : Moves env l call fault l' phase') : Later l l' := by
  cases h with
  | quiet => exact Later.refl l
  | @amend existing hphase =>
    have hamended := amended_recordAmendment env l call existing
    exact ⟨fun key row hrow => by rw [hamended.acquired]; exact hrow, hamended.approvals⟩
  | create hphase hins =>
    refine ⟨fun _ _ h => h, fun key hkey => ?_⟩
    dsimp only
    rw [Rows.get_of_insert hins]
    split_ifs
    · rfl
    · exact hkey
  | write hphase hins hnext =>
    refine ⟨fun key row hrow => ?_, fun _ h => h⟩
    dsimp only
    rw [Rows.get_of_insert hins]
    split_ifs with hkey
    · obtain ⟨hmem, hrowKey⟩ := Rows.get_eq_some_iff.mp hrow
      rw [Rows.insert_eq_none_iff.mpr ⟨row, hmem, hrowKey.trans hkey.symm⟩] at hins
      cases hins
    · exact hrow
  | book hphase => exact ⟨fun _ _ h => h, fun _ h => h⟩
  | tell hphase => exact ⟨fun _ _ h => h, fun _ h => h⟩

lemma ok (hok : CallOk env l call) (h : Moves env l call fault l' phase') :
    CallOk env l' { call with phase := phase' } := by
  unfold CallOk at hok
  cases h with
  | quiet hok' => exact hok'
  | amend hphase => trivial
  | @create parsed edited approvals hphase hins =>
    rw [hphase] at hok
    refine .inr ⟨rfl, rfl, hok.1, ?_⟩
    change (approvals.get call.approvalKey).isSome = true
    rw [Rows.get_of_insert hins, if_pos (key_approvalFor _ _ _)]
    rfl
  | @write outcome reason approval clock acquired _ hphase hins hnext =>
    have hget : acquired.get call.key = some (call.row outcome reason approval clock) := by
      rw [Rows.get_of_insert hins]
      exact if_pos rfl
    rcases hnext with rfl | rfl
    · exact hget
    · exact hget
  | book hphase =>
    rw [hphase] at hok
    exact hok
  | tell hphase => trivial

end Moves

/-! ### In every run -/

/-- The notifications that carry a row. -/
def Ledger.told (ledger : Ledger) (key : AcquiredKey) : List SignalAcquired :=
  ledger.notifications.filter fun notice => notice.acquired = key

def ApprovalKey.notice (I : ApprovalKey) (row : AcquiredMessage) : SignalAcquired :=
  ⟨I.source, I.genuine, row.approval, row.outcome⟩

def Linked (l : Ledger) (I : ApprovalKey) (row : AcquiredMessage) : Prop :=
  (row.approval = none ∧ row.outcome ≠ .intaken) ∨
    (row.approval = some I ∧ row.outcome = .intaken ∧ (l.approvals.get I).isSome = true)

lemma Linked.later {row : AcquiredMessage} (h : Linked l I row) (hl : Later l l') :
    Linked l' I row := h.imp_right fun h => ⟨h.1, h.2.1, hl.approvals _ h.2.2⟩

/-- What holds of the rows, the notifications and the calls of a message. -/
structure Sound (env : Env) (I : ApprovalKey) (l : Ledger) (calls : ℕ → Option Call) : Prop where
  ok : ∀ k call, calls k = some call → CallOk env l call
  linked : ∀ row, l.acquired.get I.genuine = some row → Linked l I row
  told : l.told I.genuine = [] ∨
    ∃ row, l.acquired.get I.genuine = some row ∧ l.told I.genuine = [I.notice row] ∧
      ∀ k call, calls k = some call → call.key = I.genuine → call.phase.telling = false
  /-- One call at most has the row to tell. -/
  one : ∀ k k' call call', calls k = some call → calls k' = some call' → call.key = I.genuine →
    call'.key = I.genuine → call.phase.telling = true → call'.phase.telling = true → k = k'

lemma CallOk.row_of_telling (hok : CallOk env l call) (h : call.phase.telling = true) :
    ∃ acq, (call.phase = .bookkeeping acq ∨ call.phase = .notifying acq) ∧
      l.acquired.get call.key = some acq := by
  unfold CallOk at hok
  cases hphase : call.phase with
  | bookkeeping acq =>
    rw [hphase] at hok
    exact ⟨acq, .inl rfl, hok⟩
  | notifying acq =>
    rw [hphase] at hok
    exact ⟨acq, .inr rfl, hok⟩
  | _ =>
    rw [hphase] at h
    cases h

lemma of_setCall {calls : ℕ → Option Call} {k k' : ℕ} {c call' : Call}
    (h : setCall calls k (some c) k' = some call') :
    (k' = k ∧ call' = c) ∨ (k' ≠ k ∧ calls k' = some call') := by
  unfold setCall at h
  split_ifs at h with heq
  · exact .inl ⟨heq, (Option.some.inj h).symm⟩
  · exact .inr ⟨heq, h⟩

lemma told_append (l : Ledger) (notice : SignalAcquired) (key : AcquiredKey) :
    Ledger.told { l with notifications := l.notifications ++ [notice] } key =
      if notice.acquired = key then l.told key ++ [notice] else l.told key := by
  unfold Ledger.told
  dsimp only
  rw [List.filter_append]
  split_ifs with h
  · simp [h]
  · simp [h]

namespace Sound

variable {calls : ℕ → Option Call} {fault : Option Fault} {phase' : Phase} {k : ℕ}

lemma ok_move (h : Sound env I l calls) (hcall : calls k = some call)
    (hm : Moves env l call fault l' phase') :
    ∀ k' call', setCall calls k (some { call with phase := phase' }) k' = some call' →
      CallOk env l' call' := by
  intro k' call' hk'
  rcases of_setCall hk' with ⟨-, rfl⟩ | ⟨-, hk'⟩
  · exact hm.ok (h.ok k call hcall)
  · exact (h.ok k' call' hk').later hm.later

lemma one_move (h : Sound env I l calls) (hcall : calls k = some call)
    (htell : phase'.telling = true → call.phase.telling = true) :
    ∀ k₁ k₂ c₁ c₂, setCall calls k (some { call with phase := phase' }) k₁ = some c₁ →
      setCall calls k (some { call with phase := phase' }) k₂ = some c₂ → c₁.key = I.genuine →
      c₂.key = I.genuine → c₁.phase.telling = true → c₂.phase.telling = true → k₁ = k₂ := by
  have hold : ∀ {k' call'}, setCall calls k (some { call with phase := phase' }) k' = some call' →
      call'.key = I.genuine → call'.phase.telling = true →
      ∃ c, calls k' = some c ∧ c.key = I.genuine ∧ c.phase.telling = true := by
    intro k' call' hk' hkey ht
    rcases of_setCall hk' with ⟨rfl, rfl⟩ | ⟨-, hk'⟩
    · exact ⟨call, hcall, hkey, htell ht⟩
    · exact ⟨call', hk', hkey, ht⟩
  intro k₁ k₂ c₁ c₂ h₁ h₂ hkey₁ hkey₂ ht₁ ht₂
  obtain ⟨c₁', h₁', hk₁', ht₁'⟩ := hold h₁ hkey₁ ht₁
  obtain ⟨c₂', h₂', hk₂', ht₂'⟩ := hold h₂ hkey₂ ht₂
  exact h.one _ _ _ _ h₁' h₂' hk₁' hk₂' ht₁' ht₂'

lemma told_move (h : Sound env I l calls) (hcall : calls k = some call)
    (hrow : l'.acquired.get I.genuine = l.acquired.get I.genuine)
    (hnotes : l'.notifications = l.notifications)
    (htell : call.key = I.genuine → phase'.telling = true → call.phase.telling = true) :
    l'.told I.genuine = [] ∨
      ∃ row, l'.acquired.get I.genuine = some row ∧ l'.told I.genuine = [I.notice row] ∧
        ∀ k' call', setCall calls k (some { call with phase := phase' }) k' = some call' →
          call'.key = I.genuine → call'.phase.telling = false := by
  unfold Ledger.told
  rw [hnotes, hrow]
  refine h.told.imp_right fun ⟨row, hget, htold, hnone⟩ => ⟨row, hget, htold, fun k' call' hk' hkey => ?_⟩
  rcases of_setCall hk' with ⟨-, rfl⟩ | ⟨-, hk'⟩
  · by_contra ht
    have := htell hkey (by simpa using ht)
    rw [hnone k call hcall hkey] at this
    cases this
  · exact hnone k' call' hk' hkey

/-- A step that changes neither rows nor notifications and begins no telling. -/
lemma move_same (h : Sound env I l calls) (hcall : calls k = some call)
    (hm : Moves env l call fault l' phase') (hacquired : l'.acquired = l.acquired)
    (hnotes : l'.notifications = l.notifications)
    (htell : phase'.telling = true → call.phase.telling = true) :
    Sound env I l' (setCall calls k (some { call with phase := phase' })) := by
  refine ⟨h.ok_move hcall hm, fun row hrow => ?_, ?_, h.one_move hcall htell⟩
  · rw [hacquired] at hrow
    exact (h.linked row hrow).later hm.later
  · exact h.told_move hcall (by rw [hacquired]) hnotes fun _ => htell

lemma nobody_tells (h : Sound env I l calls) (hfresh : l.acquired.get I.genuine = none) {k' : ℕ}
    {call' : Call} (hk' : calls k' = some call') (hkey : call'.key = I.genuine) :
    call'.phase.telling = false := by
  by_contra ht
  obtain ⟨acq, -, hacq⟩ := (h.ok k' call' hk').row_of_telling (by simpa using ht)
  rw [hkey, hfresh] at hacq
  cases hacq

lemma told_of_fresh (h : Sound env I l calls) (hfresh : l.acquired.get I.genuine = none) :
    l.told I.genuine = [] := by
  rcases h.told with htold | ⟨row, hold, -⟩
  · exact htold
  · rw [hfresh] at hold
    cases hold

lemma move (h : Sound env I l calls) (hcall : calls k = some call)
    (hm : Moves env l call fault l' phase') :
    Sound env I l' (setCall calls k (some { call with phase := phase' })) := by
  have hok := h.ok k call hcall
  have hm' := hm
  cases hm with
  | quiet hok'' hquiet =>
    exact h.move_same hcall hm' rfl rfl fun ht => by rw [hquiet] at ht; cases ht
  | @amend existing hphase =>
    have hamended := amended_recordAmendment env l call existing
    exact h.move_same hcall hm' hamended.acquired hamended.notifications fun ht => by cases ht
  | create hphase hins => exact h.move_same hcall hm' rfl rfl fun ht => by cases ht
  | book hphase => exact h.move_same hcall hm' rfl rfl fun _ => by rw [hphase]; rfl
  | @write outcome reason approval clock acquired _ hphase hins hnext =>
    have hget := Rows.get_of_insert hins I.genuine
    have hfresh : l.acquired.get call.key = none := Rows.fresh_of_insert hins
    by_cases hkey : call.key = I.genuine
    · have hrow : acquired.get I.genuine = some (call.row outcome reason approval clock) :=
        hget.trans (if_pos hkey)
      rw [hkey] at hfresh
      refine ⟨h.ok_move hcall hm', fun row hrow' => ?_, .inl (h.told_of_fresh hfresh),
        fun k₁ k₂ c₁ c₂ h₁ h₂ hkey₁ hkey₂ ht₁ ht₂ => ?_⟩
      · obtain rfl : call.row outcome reason approval clock = row :=
          Option.some.inj (hrow.symm.trans hrow')
        unfold CallOk at hok
        rw [hphase, (Call.genuine_of_key hkey).2] at hok
        exact hok.imp_right fun hok => ⟨hok.1, hok.2.1, hok.2.2.2⟩
      · rcases of_setCall h₁ with ⟨rfl, -⟩ | ⟨-, h₁⟩
        · rcases of_setCall h₂ with ⟨rfl, -⟩ | ⟨-, h₂⟩
          · rfl
          · rw [h.nobody_tells hfresh h₂ hkey₂] at ht₂
            cases ht₂
        · rw [h.nobody_tells hfresh h₁ hkey₁] at ht₁
          cases ht₁
    · have hother : acquired.get I.genuine = l.acquired.get I.genuine := hget.trans (if_neg hkey)
      have hmine : ∀ {k' call'}, setCall calls k (some { call with phase := phase' }) k' = some call' →
          call'.key = I.genuine → calls k' = some call' := by
        intro k' call' hk' hkey'
        rcases of_setCall hk' with ⟨-, rfl⟩ | ⟨-, hk'⟩
        · exact absurd hkey' hkey
        · exact hk'
      refine ⟨h.ok_move hcall hm', fun row hrow => ?_,
        h.told_move hcall hother rfl fun hkey' => absurd hkey' hkey,
        fun k₁ k₂ c₁ c₂ h₁ h₂ hkey₁ hkey₂ ht₁ ht₂ => ?_⟩
      · exact (h.linked row (hother.symm.trans hrow)).later hm'.later
      · exact h.one _ _ _ _ (hmine h₁ hkey₁) (hmine h₂ hkey₂) hkey₁ hkey₂ ht₁ ht₂
  | @tell acq hphase =>
    have htell : call.phase.telling = true := by rw [hphase]; rfl
    have hacq : l.acquired.get call.key = some acq := by
      unfold CallOk at hok
      rwa [hphase] at hok
    have hacqKey : acq.key = call.key := (Rows.get_eq_some_iff.mp hacq).2
    refine ⟨h.ok_move hcall hm', fun row hrow => (h.linked row hrow).later hm'.later, ?_,
      h.one_move hcall fun ht => by cases ht⟩
    rw [told_append]
    by_cases hkey : call.key = I.genuine
    · have htold : l.told I.genuine = [] := by
        refine h.told.resolve_right fun ⟨row, _, _, hnone⟩ => ?_
        rw [hnone k call hcall hkey] at htell
        cases htell
      rw [hkey] at hacq hacqKey
      have hslug : call.provider.slug = I.source := (AcquiredKey.mk.inj hkey).1
      rw [if_pos hacqKey, htold, hslug, hacqKey]
      refine .inr ⟨acq, hacq, rfl, fun k' call' hk' hkey' => ?_⟩
      rcases of_setCall hk' with ⟨-, rfl⟩ | ⟨hne, hk'⟩
      · rfl
      · by_contra ht
        exact hne (h.one k' k call' call hk' hcall hkey' hkey (by simpa using ht) htell)
    · rw [if_neg (hacqKey ▸ hkey)]
      exact h.told_move hcall rfl rfl fun hkey' => absurd hkey' hkey

end Sound

/-! ### The steps of the system -/

/-- The time at which an action is taken, if it takes one. -/
def Action.clock : Action → Option ℤ
  | .catchUp _ _ _ _ _ clock | .advance _ _ clock | .deliver _ _ clock | .acquire _ _ clock => some clock
  | .die _ | .crash | .setStatus _ _ | .post _ _ | .edit _ _ => none

/-- Whether an action loses a call, or lets it run into a fault. -/
def Action.hits (a : Action) (k : ℕ) : Prop :=
  match a with
  | .acquire k' fault _ => k' = k ∧ fault ≠ none
  | .die k' => k' + 1 = k
  | .crash => True
  | _ => False

def Begins (s : State) (a : Action) (call : Call) : Prop :=
  call.phase = .opening ∧ s.ledger.providers.forChat call.message.chatId = some call.provider ∧
    a.clock = some call.now

/-- Stores that differ in their providers only. -/
structure SameBooks (l l' : Ledger) : Prop where
  acquired : l'.acquired = l.acquired
  approvals : l'.approvals = l.approvals
  amendments : l'.amendments = l.amendments
  notifications : l'.notifications = l.notifications

lemma SameBooks.refl (l : Ledger) : SameBooks l l := ⟨rfl, rfl, rfl, rfl⟩

lemma SameBooks.later (h : SameBooks l l') : Later l l' :=
  ⟨fun key row hrow => by rw [h.acquired]; exact hrow,
    fun key hkey => by rw [h.approvals]; exact hkey⟩

/-- A step that is not one of a call. -/
structure Idle (s s' : State) (a : Action) : Prop where
  books : SameBooks s.ledger s'.ledger
  calls : ∀ k call, s'.calls k = some call → s.calls k = some call ∨ Begins s a call
  kept : ∀ k call, s.calls k = some call → call.phase.ended = false → ¬ a.hits k →
    s'.calls k = some call

/-- The pass has a call only while it waits for one. -/
def SlotKept (s : State) : Prop :=
  ∀ call, s.calls 0 = some call → ∃ pass, s.pass = some pass ∧
    ∃ pageLen raw rest F K t, pass.phase = .processing pageLen (raw :: rest) F K (some t)

variable {s s' : State} {a : Action}

lemma SlotKept.free (h : SlotKept s) {pass : Pass} (hpass : s.pass = some pass)
    (hphase : ∀ pageLen raw rest F K t,
      pass.phase ≠ .processing pageLen (raw :: rest) F K (some t)) : s.calls 0 = none := by
  cases hcall : s.calls 0 with
  | none => rfl
  | some call =>
    obtain ⟨pass', hpass', pageLen, raw, rest, F, K, t, hphase'⟩ := h call hcall
    rw [hpass] at hpass'
    obtain rfl := Option.some.inj hpass'
    exact absurd hphase' (hphase pageLen raw rest F K t)

lemma slotKept_of_none (h : s.calls 0 = none) : SlotKept s := by
  intro call hcall
  rw [h] at hcall
  cases hcall

lemma idle_of_same (hbooks : SameBooks s.ledger s'.ledger) (hcalls : s'.calls = s.calls) :
    Idle s s' a := by
  refine ⟨hbooks, fun k call h => ?_, fun k call h _ _ => ?_⟩
  · rw [hcalls] at h
    exact .inl h
  · rw [hcalls]
    exact h

lemma idle_of_setCall {k : ℕ} {new : Option Call} (hledger : s'.ledger = s.ledger)
    (hcalls : s'.calls = setCall s.calls k new) (hnew : ∀ call, new = some call → Begins s a call)
    (hold : ∀ call, s.calls k = some call → call.phase.ended = true ∨ a.hits k) :
    Idle s s' a := by
  refine ⟨hledger ▸ SameBooks.refl _, fun k' call h => ?_, fun k' call h hgoing hmiss => ?_⟩
  · rw [hcalls] at h
    unfold setCall at h
    split_ifs at h
    · exact .inr (hnew call h)
    · exact .inl h
  · rw [hcalls, setCall_of_ne]
    · exact h
    · rintro rfl
      rcases hold call h with hended | hhit
      · rw [hended] at hgoing
        cases hgoing
      · exact hmiss hhit

lemma idle_advance {pass : Pass} (hslot : SlotKept s) (hpass : s.pass = some pass)
    (attempts : List Attempt) (fault : Option Fault) (clock : ℤ) :
    Idle s (advance s pass attempts fault clock) (.advance attempts fault clock) ∧
      SlotKept (advance s pass attempts fault clock) := by
  unfold advance
  cases hphase : pass.phase with
  | finished => exact ⟨idle_of_same (SameBooks.refl _) rfl, hslot⟩
  | looping =>
    have hfree := hslot.free hpass fun _ _ _ _ _ _ h => by rw [hphase] at h; cases h
    exact ⟨idle_of_same (SameBooks.refl _) rfl, slotKept_of_none hfree⟩
  | persisting pageLen =>
    have hfree := hslot.free hpass fun _ _ _ _ _ _ h => by rw [hphase] at h; cases h
    dsimp only
    split
    · split
      · exact ⟨idle_of_same (SameBooks.refl _) rfl, slotKept_of_none hfree⟩
      · exact ⟨idle_of_same ⟨rfl, rfl, rfl, rfl⟩ rfl, slotKept_of_none hfree⟩
    · exact ⟨idle_of_same (SameBooks.refl _) rfl, slotKept_of_none hfree⟩
  | processing pageLen rest F K waiting =>
    cases rest with
    | nil =>
      have hfree := hslot.free hpass fun _ _ _ _ _ _ h => by rw [hphase] at h; cases h
      exact ⟨idle_of_same (SameBooks.refl _) rfl, slotKept_of_none hfree⟩
    | cons raw rest =>
      cases waiting with
      | none =>
        have hfree := hslot.free hpass fun _ _ _ _ _ _ h => by rw [hphase] at h; cases h
        dsimp only
        split
        · exact ⟨idle_of_same (SameBooks.refl _) rfl, slotKept_of_none hfree⟩
        split
        · exact ⟨idle_of_same (SameBooks.refl _) rfl, slotKept_of_none hfree⟩
        next provider hprovider =>
        split
        · exact ⟨idle_of_same (SameBooks.refl _) rfl, slotKept_of_none hfree⟩
        · refine ⟨idle_of_setCall rfl rfl (fun call hcall => ?_) fun call hcall => ?_, ?_⟩
          · obtain rfl := Option.some.inj hcall
            exact ⟨rfl, hprovider, rfl⟩
          · rw [hfree] at hcall
            cases hcall
          · intro call _
            exact ⟨_, rfl, _, _, _, _, _, _, rfl⟩
      | some t =>
        have hend : ∀ call, s.calls 0 = some call → call.phase.ended = true →
            ∀ s' : State, s'.ledger = s.ledger → s'.calls = setCall s.calls 0 none →
            Idle s s' (.advance attempts fault clock) ∧ SlotKept s' := by
          intro call hcall hended s' hledger hcalls
          refine ⟨idle_of_setCall hledger hcalls (fun call h => by cases h) fun call' hcall' => .inl ?_,
            slotKept_of_none (by rw [hcalls, setCall_self])⟩
          obtain rfl := Option.some.inj (hcall.symm.trans hcall')
          exact hended
        dsimp only
        split
        · next acq hdone =>
          obtain ⟨call, hcall, hcallPhase⟩ := Option.map_eq_some_iff.mp hdone
          exact hend call hcall (by rw [hcallPhase]; rfl) _ rfl rfl
        · next hraised =>
          obtain ⟨call, hcall, hcallPhase⟩ := Option.map_eq_some_iff.mp hraised
          exact hend call hcall (by rw [hcallPhase]; rfl) _ rfl rfl
        · exact ⟨idle_of_same (SameBooks.refl _) rfl, hslot⟩

def State.moved (s : State) (k : ℕ) (call : Call) (out : Ledger × Phase) : State :=
  { s with
    ledger := out.1
    calls := setCall s.calls k (some { call with phase := out.2 }) }

lemma step_cases (env : Env) (hslot : SlotKept s) (a : Action) :
    ((∃ k call fault clock, a = .acquire k fault clock ∧ s.calls k = some call ∧
      step env s a = s.moved k call (callStep env s.ledger call fault clock)) ∨
    Idle s (step env s a) a) ∧ SlotKept (step env s a) := by
  have hsame : Idle s s a := idle_of_same (SameBooks.refl _) rfl
  unfold step
  cases a with
  | catchUp chat pageSize maxPages timeBudget dryRun clock =>
    dsimp only
    split
    · exact ⟨.inr hsame, hslot⟩
    next hidle =>
    split
    · exact ⟨.inr hsame, hslot⟩
    · refine ⟨.inr (idle_of_same (SameBooks.refl _) rfl), slotKept_of_none ?_⟩
      -- a pass that waits is under way
      cases hcall : s.calls 0 with
      | none => rfl
      | some call =>
        obtain ⟨pass, hpass, pageLen, raw, rest, F, K, t, hphase⟩ := hslot call hcall
        refine absurd ?_ hidle
        unfold State.passing
        rw [hpass, Option.any_some, hphase]
        rfl
  | advance attempts fault clock =>
    dsimp only
    split
    · exact ⟨.inr hsame, hslot⟩
    · next pass hpass =>
      have hidle := idle_advance hslot hpass attempts fault clock
      exact ⟨.inr hidle.1, hidle.2⟩
  | deliver k message clock =>
    dsimp only
    split
    · next provider hprovider hfree =>
      refine ⟨.inr (idle_of_setCall rfl rfl (fun call hcall => ?_) fun call hcall => ?_), ?_⟩
      · obtain rfl := Option.some.inj hcall
        exact ⟨rfl, hprovider, rfl⟩
      · rw [hfree] at hcall
        cases hcall
      · intro call hcall
        dsimp only at hcall
        rw [setCall_of_ne _ _ (Nat.succ_ne_zero k).symm] at hcall
        exact hslot call hcall
    · exact ⟨.inr hsame, hslot⟩
  | acquire k fault clock =>
    dsimp only
    split
    · exact ⟨.inr hsame, hslot⟩
    · next call hcall =>
      refine ⟨.inl ⟨k, call, fault, clock, rfl, hcall, rfl⟩, fun call' hcall' => ?_⟩
      rcases of_setCall hcall' with ⟨hk, -⟩ | ⟨-, hold⟩
      · exact hslot call (hk ▸ hcall)
      · exact hslot call' hold
  | die k =>
    refine ⟨.inr (idle_of_setCall rfl rfl (fun call h => by cases h) fun _ _ => .inr rfl), ?_⟩
    intro call hcall
    dsimp only at hcall
    rw [setCall_of_ne _ _ (Nat.succ_ne_zero k).symm] at hcall
    exact hslot call hcall
  | crash =>
    refine ⟨.inr ⟨SameBooks.refl _, fun k call h => (by cases h), fun k call _ _ hmiss => ?_⟩,
      slotKept_of_none rfl⟩
    exact absurd trivial hmiss
  | setStatus slug status => exact ⟨.inr (idle_of_same ⟨rfl, rfl, rfl, rfl⟩ rfl), hslot⟩
  | post c message => exact ⟨.inr (idle_of_same (SameBooks.refl _) rfl), hslot⟩
  | edit c message => exact ⟨.inr (idle_of_same (SameBooks.refl _) rfl), hslot⟩

lemma callOk_opening (h : call.phase = .opening) : CallOk env l call := by
  unfold CallOk
  rw [h]
  trivial

lemma Sound.idle (h : Sound env I s.ledger s.calls) (hidle : Idle s s' a) :
    Sound env I s'.ledger s'.calls := by
  have hlater := hidle.books.later
  have hold : ∀ {k call}, s'.calls k = some call → call.phase.telling = true →
      s.calls k = some call := by
    intro k call hcall ht
    rcases hidle.calls k call hcall with hcall | hbegins
    · exact hcall
    · rw [hbegins.1] at ht
      cases ht
  refine ⟨fun k call hcall => ?_, fun row hrow => ?_, ?_, fun k k' c c' h₁ h₂ hkey₁ hkey₂ ht₁ ht₂ => ?_⟩
  · rcases hidle.calls k call hcall with hcall | hbegins
    · exact (h.ok k call hcall).later hlater
    · exact callOk_opening hbegins.1
  · rw [hidle.books.acquired] at hrow
    exact (h.linked row hrow).later hlater
  · unfold Ledger.told
    rw [hidle.books.notifications, hidle.books.acquired]
    refine h.told.imp_right fun ⟨row, hrow, htold, hnone⟩ => ⟨row, hrow, htold, ?_⟩
    intro k call hcall hkey
    by_contra ht
    have := hnone k call (hold hcall (by simpa using ht)) hkey
    exact ht this
  · exact h.one k k' c c' (hold h₁ ht₁) (hold h₂ ht₂) hkey₁ hkey₂ ht₁ ht₂

/-- What holds of the calls and the store in every run. -/
structure Consistent (env : Env) (I : ApprovalKey) (s : State) : Prop where
  sound : Sound env I s.ledger s.calls
  slot : SlotKept s

lemma consistent_step (h : Consistent env I s) (a : Action) : Consistent env I (step env s a) := by
  obtain ⟨hcases, hslot⟩ := step_cases env h.slot a
  refine ⟨?_, hslot⟩
  rcases hcases with ⟨k, call, fault, clock, rfl, hcall, hstep⟩ | hidle
  · rw [hstep]
    exact h.sound.move hcall (moves_callStep (h.sound.ok k call hcall) fault clock)
  · exact h.sound.idle hidle

/-! ### Where approvals come from -/

/-- The source is live and in its chat, and the message is a tradeable signal that is neither too old
nor expired, all at the time of the call. -/
structure Fresh (env : Env) (call : Call) : Prop where
  armed : call.provider.isArmed = true
  chat : call.message.chatId = call.provider.telegramChatId
  chat_ne : call.provider.telegramChatId ≠ ""
  window : withinAcquisitionWindow call.provider call.message.date call.now = true
  signal : ∃ parsed, env.parse call.provider.parserProfile call.message.text call.message.mid =
    some parsed ∧ parsed.isTradeableShape = true ∧ signalExpired parsed call.now = false

lemma trusted_of_genuine (h : call.nonGenuine = false) :
    call.provider.isArmed = true ∧ call.message.chatId = call.provider.telegramChatId ∧
      call.provider.telegramChatId ≠ "" := by
  unfold Call.nonGenuine at h
  rw [Bool.or_eq_false_iff, Bool.not_eq_false'] at h
  obtain ⟨harmed, htrust⟩ := h
  unfold chatIdentityRefusal at htrust
  rw [harmed] at htrust
  simp only [Bool.not_true, Bool.false_eq_true, if_false] at htrust
  split_ifs at htrust with hblank hmissing hchat
  · cases htrust
  · cases htrust
  · cases htrust
  · exact ⟨harmed, not_not.mp hchat, hblank⟩

lemma Moves.approval {fault : Option Fault} {phase' : Phase} (hm : Moves env l call fault l' phase')
    (hok : CallOk env l call) {key : ApprovalKey} (h : (l'.approvals.get key).isSome = true) :
    (l.approvals.get key).isSome = true ∨
      (key = call.approvalKey ∧ call.nonGenuine = false ∧ Fresh env call ∧
        (phase'.linking = true ∨ l'.surfaced call.key)) := by
  unfold CallOk at hok
  cases hm with
  | quiet => exact .inl h
  | write => exact .inl h
  | book => exact .inl h
  | tell => exact .inl h
  | @amend existing hphase =>
    rw [hphase] at hok
    obtain ⟨hget, hgenuine⟩ := hok
    have hkey : existing.key = call.key := (Rows.get_eq_some_iff.mp hget).2
    obtain ⟨harmed, hchat, hblank⟩ := trusted_of_genuine hgenuine
    rcases (amended_recordAmendment env l call existing).surfaced key h with
      hold | ⟨rfl, hsurfaced, hwindow, hsignal⟩
    · exact .inl hold
    · rw [hkey] at hsurfaced
      refine .inr ⟨?_, hgenuine, ⟨harmed, hchat, hblank, hwindow, hsignal⟩, .inr hsurfaced⟩
      rw [hkey]
      rfl
  | @create parsed edited approvals hphase hins =>
    rw [hphase] at hok
    obtain ⟨hgenuine, hverdict⟩ := hok
    obtain ⟨harmed, hchat, hblank⟩ := trusted_of_genuine hgenuine
    obtain ⟨-, hwindow, hparsed, hshape, hexpiry⟩ := classify_tradeable hverdict
    dsimp only at h
    rw [Rows.get_of_insert hins, key_approvalFor] at h
    split_ifs at h with hkey
    · exact .inr ⟨hkey.symm, hgenuine,
        ⟨harmed, hchat, hblank, hwindow, parsed, hparsed, hshape, hexpiry⟩, .inl rfl⟩
    · exact .inl h

/-- A call of a run: at some moment its provider was loaded, and that was its time. -/
def Began (env : Env) (s₀ : State) (as : List Action) (call : Call) : Prop :=
  ∃ before a after, as = before ++ a :: after ∧ a.clock = some call.now ∧
    (run (step env) s₀ before).ledger.providers.forChat call.message.chatId = some call.provider

lemma Began.concat {s₀ : State} {as : List Action} (h : Began env s₀ as call) (a : Action) :
    Began env s₀ (as ++ [a]) call := by
  obtain ⟨before, a', after, rfl, h⟩ := h
  exact ⟨before, a', after ++ [a], by simp, h⟩

/-- Where the calls and the approvals of a run come from. -/
structure Traced (env : Env) (s₀ : State) (as : List Action) : Prop where
  calls : ∀ k call, (run (step env) s₀ as).calls k = some call → Began env s₀ as call
  approvals : ∀ key, ((run (step env) s₀ as).ledger.approvals.get key).isSome = true →
    (s₀.ledger.approvals.get key).isSome = true ∨
      ∃ call, Began env s₀ as call ∧ call.approvalKey = key ∧ Fresh env call

lemma traced (env : Env) {s₀ : State} (hkept : ∀ as, Consistent env I (run (step env) s₀ as))
    (hcalls : ∀ k, s₀.calls k = none) (as : List Action) : Traced env s₀ as := by
  induction as using List.reverseRecOn with
  | nil =>
    refine ⟨fun k call h => ?_, fun key h => .inl h⟩
    rw [run_nil, hcalls k] at h
    cases h
  | append_singleton as a ih =>
    have hk := hkept as
    obtain ⟨hcases, -⟩ := step_cases env hk.slot a
    refine ⟨fun k call h => ?_, fun key h => ?_⟩
    · rw [run_concat] at h
      rcases hcases with ⟨k', call', fault, clock, rfl, hcall', hstep⟩ | hidle
      · rw [hstep] at h
        rcases of_setCall h with ⟨-, rfl⟩ | ⟨-, h⟩
        · exact (ih.calls k' call' hcall').concat _
        · exact (ih.calls k call h).concat _
      · rcases hidle.calls k call h with h | ⟨-, hprovider, hclock⟩
        · exact (ih.calls k call h).concat a
        · exact ⟨as, a, [], rfl, hclock, hprovider⟩
    · have hold : ∀ {key}, ((run (step env) s₀ as).ledger.approvals.get key).isSome = true →
          (s₀.ledger.approvals.get key).isSome = true ∨
            ∃ call, Began env s₀ (as ++ [a]) call ∧ call.approvalKey = key ∧ Fresh env call :=
        fun h => (ih.approvals _ h).imp_right fun ⟨call, hbegan, h⟩ => ⟨call, hbegan.concat a, h⟩
      rw [run_concat] at h
      rcases hcases with ⟨k', call', fault, clock, rfl, hcall', hstep⟩ | hidle
      · have hok := hk.sound.ok k' call' hcall'
        rw [hstep] at h
        rcases (moves_callStep hok fault clock).approval hok h with h | ⟨rfl, -, hfresh, -⟩
        · exact hold h
        · exact .inr ⟨call', (ih.calls k' call' hcall').concat _, rfl, hfresh⟩
      · rw [hidle.books.approvals] at h
        exact hold h

/-! ### When the calls for a message do not disturb each other -/

/-- One call at most is under way for a message. -/
def Alone (I : ApprovalKey) (calls : ℕ → Option Call) : Prop :=
  ∀ k k' call call', calls k = some call → calls k' = some call' → call.key = I.genuine →
    call'.key = I.genuine → call.phase.ended = false → call'.phase.ended = false → k = k'

/-- A step after which one call at most is under way for a message, and in which no call for it is lost
or runs into a fault between its approval and its notification. -/
structure Orderly (env : Env) (I : ApprovalKey) (s : State) (a : Action) : Prop where
  alone : Alone I (step env s a).calls
  spared : ∀ k call, s.calls k = some call → call.key = I.genuine → call.phase.committed = true →
    ¬ a.hits k

/-- The approval of a message is accounted for: an edit has surfaced it, or a call is about to write
its row, or it has its row, and the row has its notification or a call that will send it. -/
structure Settling (I : ApprovalKey) (s : State) : Prop where
  alone : Alone I s.calls
  fresh : ∀ k call, s.calls k = some call → call.key = I.genuine → call.phase.reserved = true →
    s.ledger.acquired.get I.genuine = none
  held : (s.ledger.approvals.get I).isSome = true → s.ledger.surfaced I.genuine ∨
    (∃ k call, s.calls k = some call ∧ call.key = I.genuine ∧ call.phase.linking = true) ∨
    ∃ row, s.ledger.acquired.get I.genuine = some row ∧ row.approval = some I ∧
      (s.ledger.told I.genuine ≠ [] ∨
        ∃ k call, s.calls k = some call ∧ call.key = I.genuine ∧ call.phase.telling = true)

lemma Phase.not_ended_of_reserved {phase : Phase} (h : phase.reserved = true) :
    phase.ended = false := by
  cases phase <;> first | rfl | cases h

lemma Phase.committed_of_linking {phase : Phase} (h : phase.linking = true) :
    phase.committed = true ∧ phase.reserved = true ∧ phase.ended = false := by
  cases phase with
  | writing outcome reason approval => exact ⟨h, rfl, rfl⟩
  | _ => cases h

lemma CallOk.committed_of_telling (hok : CallOk env l call) (h : call.phase.telling = true)
    {row : AcquiredMessage} (hrow : l.acquired.get call.key = some row)
    (happroval : row.approval = some I) :
    call.phase.committed = true ∧ call.phase.ended = false := by
  obtain ⟨acq, hphase, hacq⟩ := hok.row_of_telling h
  obtain rfl := Option.some.inj (hrow.symm.trans hacq)
  rcases hphase with hphase | hphase
  · rw [hphase]
    exact ⟨by rw [Phase.committed, happroval]; rfl, rfl⟩
  · rw [hphase]
    exact ⟨by rw [Phase.committed, happroval]; rfl, rfl⟩

namespace Moves

variable {fault : Option Fault} {phase' : Phase}

lemma surfaced (h : Moves env l call fault l' phase') {key : AcquiredKey}
    (hkey : l.surfaced key) : l'.surfaced key := by
  obtain ⟨amendment, hmem, hamendment⟩ := hkey
  cases h with
  | @amend existing hphase =>
    exact ⟨amendment, (amended_recordAmendment env l call existing).amendments _ hmem, hamendment⟩
  | _ => exact ⟨amendment, hmem, hamendment⟩

lemma told (h : Moves env l call fault l' phase') {key : AcquiredKey} (hkey : l.told key ≠ []) :
    l'.told key ≠ [] := by
  cases h with
  | @amend existing hphase =>
    unfold Ledger.told
    rwa [(amended_recordAmendment env l call existing).notifications]
  | quiet | create | write | book => exact hkey
  | tell hphase =>
    rw [told_append]
    split_ifs
    · exact List.append_ne_nil_of_left_ne_nil hkey _
    · exact hkey

end Moves

lemma Settling.move (hs : Settling I s) (hc : Consistent env I s) {k : ℕ} {fault : Option Fault}
    {l' : Ledger} {phase' : Phase} (hcall : s.calls k = some call)
    (hm : Moves env s.ledger call fault l' phase')
    (halone : Alone I (setCall s.calls k (some { call with phase := phase' })))
    (hspared : call.key = I.genuine → call.phase.committed = true → fault = none) :
    Settling I { s with
      ledger := l'
      calls := setCall s.calls k (some { call with phase := phase' }) } := by
  have hok := hc.sound.ok k call hcall
  have hself := setCall_self s.calls k (some { call with phase := phase' })
  refine ⟨halone, fun k' call' hk' hkey hres => ?_, fun happroved => ?_⟩
  · dsimp only at hk' ⊢
    rcases of_setCall hk' with ⟨-, rfl⟩ | ⟨hne, hk'⟩
    · have hkey' : call.key = I.genuine := hkey
      cases hm with
      | quiet _ _ hlook =>
        rcases hlook hres with hres' | hnone
        · exact hs.fresh k call hcall hkey' hres'
        · rwa [hkey'] at hnone
      | create hphase hins => exact hs.fresh k call hcall hkey' (by rw [hphase]; rfl)
      | write hphase hins hnext => rcases hnext with rfl | rfl <;> cases hres
      | amend | book | tell => cases hres
    · have hfresh := hs.fresh k' call' hk' hkey hres
      cases hm with
      | @amend existing hphase => rw [(amended_recordAmendment env s.ledger call existing).acquired, hfresh]
      | quiet | create | book | tell => exact hfresh
      | write hphase hins hnext =>
        dsimp only
        rw [Rows.get_of_insert hins]
        split_ifs with hmine
        · -- two calls for the message would be under way
          exact absurd (hs.alone k' k call' call hk' hcall hkey hmine
            (Phase.not_ended_of_reserved hres) (by rw [hphase]; rfl)) hne
        · exact hfresh
  · dsimp only at happroved ⊢
    rcases hm.approval hok happroved with hold | ⟨rfl, hgenuine, -, hnew | hsurfaced⟩
    · rcases hs.held hold with hsurfaced | ⟨k₁, c₁, hk₁, hkey₁, hlink₁⟩ | ⟨row, hrow, happroval, htell⟩
      · exact .inl (hm.surfaced hsurfaced)
      · by_cases hk : k₁ = k
        · rw [hk, hcall] at hk₁
          obtain rfl := Option.some.inj hk₁
          obtain ⟨hcommitted, hres, -⟩ := Phase.committed_of_linking hlink₁
          have hfault := hspared hkey₁ hcommitted
          have hfresh := hs.fresh k call hcall hkey₁ hres
          cases hm with
          | quiet _ _ _ _ hlink =>
            rw [hkey₁] at hlink
            exact absurd hfresh (hlink hfault hlink₁)
          | @write outcome reason approval clock acquired _ hphase hins hnext =>
            unfold CallOk at hok
            rw [hphase] at hok hlink₁
            have happroval : approval = some I := by
              rcases hok with ⟨hnone, -⟩ | ⟨hsome, -⟩
              · rw [hnone] at hlink₁
                cases hlink₁
              · rw [hsome, (Call.genuine_of_key hkey₁).2]
            refine .inr (.inr ⟨call.row outcome reason approval clock, ?_, happroval,
              .inr ⟨k, _, hself, hkey₁, ?_⟩⟩)
            · exact (Rows.get_of_insert hins _).trans (if_pos hkey₁)
            · rcases hnext with rfl | rfl <;> rfl
          | amend hphase | create hphase | book hphase | tell hphase =>
            rw [hphase] at hlink₁
            cases hlink₁
        · exact .inr (.inl ⟨k₁, c₁, (setCall_of_ne _ _ hk).trans hk₁, hkey₁, hlink₁⟩)
      · have hrow' := hm.later.acquired _ _ hrow
        refine .inr (.inr ⟨row, hrow', happroval, ?_⟩)
        rcases htell with htold | ⟨k₁, c₁, hk₁, hkey₁, htell₁⟩
        · exact .inl (hm.told htold)
        · by_cases hk : k₁ = k
          · rw [hk, hcall] at hk₁
            obtain rfl := Option.some.inj hk₁
            rw [← hkey₁] at hrow
            have hfault := hspared hkey₁ (hok.committed_of_telling htell₁ hrow happroval).1
            cases hm with
            | quiet _ _ _ htell =>
              rw [htell hfault] at htell₁
              cases htell₁
            | book hphase => exact .inr ⟨k, _, hself, hkey₁, rfl⟩
            | @tell acq hphase =>
              left
              unfold CallOk at hok
              rw [hphase] at hok
              have hkey : acq.key = I.genuine := (Rows.get_eq_some_iff.mp hok).2.trans hkey₁
              rw [told_append, if_pos hkey]
              exact List.append_ne_nil_of_right_ne_nil _ (List.cons_ne_nil _ _)
            | amend hphase | create hphase | write hphase =>
              rw [hphase] at htell₁
              cases htell₁
          · exact .inr ⟨k₁, c₁, (setCall_of_ne _ _ hk).trans hk₁, hkey₁, htell₁⟩
    · exact .inr (.inl ⟨k, _, hself, Call.key_of_genuine hgenuine, hnew⟩)
    · rw [Call.key_of_genuine hgenuine] at hsurfaced
      exact .inl hsurfaced

lemma Settling.idle (hs : Settling I s) (hc : Consistent env I s) (hidle : Idle s s' a)
    (halone : Alone I s'.calls)
    (hspared : ∀ k call, s.calls k = some call → call.key = I.genuine →
      call.phase.committed = true → ¬ a.hits k) : Settling I s' := by
  have hbooks := hidle.books
  have hkept : ∀ {k call}, s.calls k = some call → call.key = I.genuine →
      call.phase.committed = true → call.phase.ended = false → s'.calls k = some call :=
    fun {k call} hcall hkey hcommitted hgoing =>
      hidle.kept k call hcall hgoing (hspared k call hcall hkey hcommitted)
  refine ⟨halone, fun k call hcall hkey hres => ?_, fun happroved => ?_⟩
  · rw [hbooks.acquired]
    rcases hidle.calls k call hcall with hcall | hbegins
    · exact hs.fresh k call hcall hkey hres
    · rw [hbegins.1] at hres
      cases hres
  · rw [hbooks.approvals] at happroved
    unfold Ledger.surfaced Ledger.told
    rw [hbooks.amendments, hbooks.acquired, hbooks.notifications]
    rcases hs.held happroved with hsurfaced | ⟨k, call, hcall, hkey, hlink⟩ | ⟨row, hrow, happroval, htell⟩
    · exact .inl hsurfaced
    · obtain ⟨hcommitted, -, hgoing⟩ := Phase.committed_of_linking hlink
      exact .inr (.inl ⟨k, call, hkept hcall hkey hcommitted hgoing, hkey, hlink⟩)
    · refine .inr (.inr ⟨row, hrow, happroval, htell.imp_right ?_⟩)
      rintro ⟨k, call, hcall, hkey, htelling⟩
      rw [← hkey] at hrow
      obtain ⟨hcommitted, hgoing⟩ :=
        (hc.sound.ok k call hcall).committed_of_telling htelling hrow happroval
      exact ⟨k, call, hkept hcall hkey hcommitted hgoing, hkey, htelling⟩

lemma settling_step (hs : Settling I s) (hc : Consistent env I s) (ho : Orderly env I s a) :
    Settling I (step env s a) := by
  have halone := ho.alone
  rcases (step_cases env hc.slot a).1 with ⟨k, call, fault, clock, rfl, hcall, hstep⟩ | hidle
  · rw [hstep] at halone ⊢
    refine hs.move hc hcall (moves_callStep (hc.sound.ok k call hcall) fault clock) halone ?_
    intro hkey hcommitted
    by_contra hfault
    exact ho.spared k call hcall hkey hcommitted ⟨rfl, hfault⟩
  · exact hs.idle hc hidle halone ho.spared

/-! ### The agreement -/

/-- How many more steps a call can take. -/
def Phase.rank : Phase → ℕ
  | .opening => 7
  | .classifying => 6
  | .intaking _ _ => 5
  | .creating _ _ => 4
  | .writing _ _ _ => 3
  | .bookkeeping _ => 2
  | .amending _ | .notifying _ => 1
  | .done _ | .raised => 0

lemma rank_callStep (env : Env) (l : Ledger) (call : Call) (fault : Option Fault) (clock : ℤ) :
    (callStep env l call fault clock).2.rank = 0 ∨
      (callStep env l call fault clock).2.rank < call.phase.rank := by
  unfold callStep
  cases hphase : call.phase with
  | writing outcome reason approval =>
    dsimp only
    split
    · exact .inl rfl
    split
    · split
      · exact .inl rfl
      · exact .inl rfl
    · dsimp only
      split
      · exact .inr (Nat.lt_of_lt_of_le Nat.one_lt_two (Nat.le_succ 2))
      · exact .inr (Nat.lt_succ_self 2)
  | _ =>
    dsimp only
    repeat' split
    all_goals first
      | exact .inl rfl
      | exact .inr (by simp only [Phase.rank]; decide)

lemma calls_acquire (env : Env) {k : ℕ} (hcall : s.calls k = some call) (fault : Option Fault)
    (clock : ℤ) : (step env s (.acquire k fault clock)).calls k =
      some { call with phase := (callStep env s.ledger call fault clock).2 } := by
  unfold step
  dsimp only
  rw [hcall]
  exact setCall_self _ _ _

/-- A store in which nothing is known of a message. -/
structure Clean (I : ApprovalKey) (l : Ledger) : Prop where
  approvals : l.approvals.get I = none
  acquired : l.acquired.get I.genuine = none
  told : l.told I.genuine = []

/-- How the approval, the row and the notification of a message agree after a run. -/
structure Agreement (env : Env) (I : ApprovalKey) (s₀ : State) (as : List Action) (s : State) :
    Prop where
  oneApproval : ∀ approval ∈ s.ledger.approvals.rows, ∀ approval' ∈ s.ledger.approvals.rows,
    approval.key = I → approval'.key = I → approval = approval'
  oneRow : ∀ row ∈ s.ledger.acquired.rows, ∀ row' ∈ s.ledger.acquired.rows,
    row.key = I.genuine → row'.key = I.genuine → row = row'
  linked : ∀ row, s.ledger.acquired.get I.genuine = some row → Linked s.ledger I row
  oneNotification : s.ledger.told I.genuine = [] ∨
    ∃ row, s.ledger.acquired.get I.genuine = some row ∧ s.ledger.told I.genuine = [I.notice row]
  origin : (s.ledger.approvals.get I).isSome = true →
    ∃ call, Began env s₀ as call ∧ call.approvalKey = I ∧ Fresh env call
  ends : ∀ k call, s.calls k = some call → ∀ fault clock, ∃ call',
    (step env s (.acquire k fault clock)).calls k = some call' ∧
      (call'.phase.rank = 0 ∨ call'.phase.rank < call.phase.rank)
  /-- After an orderly run, when no call for the message is under way. -/
  settled : StepsMeet (step env) (Orderly env I) s₀ as →
    (∀ k call, s.calls k = some call → call.key = I.genuine → call.phase.ended = true) →
    (s.ledger.approvals.get I).isSome = true → ¬ s.ledger.surfaced I.genuine →
    ∃ row, s.ledger.acquired.get I.genuine = some row ∧ row.outcome = .intaken ∧
      row.approval = some I ∧ s.ledger.told I.genuine = [I.notice row]

lemma consistent_start (env : Env) {ledger : Ledger} (chats : String → Chat) (h : Clean I ledger) :
    Consistent env I (start ledger chats) := by
  refine ⟨⟨fun k call hcall => ?_, fun row hrow => ?_, .inl h.told, fun k k' call call' hcall => ?_⟩,
    fun call hcall => ?_⟩
  · cases hcall
  · have hrow' := h.acquired.symm.trans hrow
    cases hrow'
  · cases hcall
  · cases hcall

def signalEnv : Env where
  parse _ text _ :=
    if text = "buy" then
      some
        { kind := .signal
          market := "XAUUSD"
          direction := "BUY"
          entry := "2400"
          stopLoss := "2390" }
    else some { kind := .unknown }
  digest text := text

def armedProvider : SignalProvider where
  slug := "wayond"
  telegramChatId := "-100"
  status := .armed
  parserProfile := "wayond"

def armedLedger : Ledger where
  providers := ⟨[armedProvider], List.pairwise_singleton _ _⟩

def emptyChat : Chat where
  messages := []
  ascending := List.Pairwise.nil

def message (text : String) (edited : Bool) : Message :=
  { id := 7, chatId := "-100", text := text, date := some 0, editDate := edited }

def identity : ApprovalKey := ⟨"wayond", "-100", "7"⟩

/-- The store after a run. -/
def after (as : List Action) : Ledger :=
  (run (step signalEnv) (start armedLedger fun _ => emptyChat) as).ledger

/-- The steps of the call of a slot. -/
def go (k n : ℕ) : List Action := List.replicate n (.acquire k none 0)

/-- The actions of the first live call, which meets no fault. -/
def Action.solo : Action → Bool
  | .deliver k _ _ => k = 0
  | .acquire k fault _ => k = 1 ∧ fault = none
  | _ => false

lemma calls_solo (env : Env) {s : State} (hs : ∀ k, k ≠ 1 → s.calls k = none) {a : Action}
    (ha : a.solo = true) : ∀ k, k ≠ 1 → (step env s a).calls k = none := by
  intro k hk
  unfold step
  cases a with
  | deliver k' message clock =>
    obtain rfl : k' = 0 := of_decide_eq_true ha
    dsimp only
    split
    · exact (setCall_of_ne _ _ hk).trans (hs k hk)
    · exact hs k hk
  | acquire k' fault clock =>
    obtain ⟨rfl, rfl⟩ := of_decide_eq_true ha
    dsimp only
    split
    · exact hs k hk
    · exact (setCall_of_ne _ _ hk).trans (hs k hk)
  | _ => cases ha

lemma orderly_solo (env : Env) (I : ApprovalKey) {s : State} (hs : ∀ k, k ≠ 1 → s.calls k = none)
    {as : List Action} (has : ∀ a ∈ as, a.solo = true) :
    StepsMeet (step env) (Orderly env I) s as ∧ ∀ k, k ≠ 1 → (run (step env) s as).calls k = none := by
  induction as generalizing s with
  | nil => exact ⟨trivial, hs⟩
  | cons a as ih =>
    have ha := has a List.mem_cons_self
    have hnext := calls_solo env hs ha
    obtain ⟨horderly, hrest⟩ := ih hnext fun b hb => has b (List.mem_cons_of_mem _ hb)
    refine ⟨⟨⟨fun k k' call call' hcall hcall' _ _ _ _ => ?_, fun k call _ _ _ hhits => ?_⟩,
      horderly⟩, hrest⟩
    · have hone : ∀ {k call}, (step env s a).calls k = some call → k = 1 := by
        intro k call hcall
        by_contra hk
        rw [hnext k hk] at hcall
        cases hcall
      rw [hone hcall, hone hcall']
    · cases a with
      | deliver => exact hhits
      | acquire k' fault clock => exact hhits.2 (of_decide_eq_true ha).2
      | _ => cases ha

/-- One call acquires a fresh signal. -/
def soloRun : List Action := .deliver 0 (message "buy" false) 0 :: go 1 7

/-- A message that is no signal is acquired, and then edited into one. -/
def editedRun : List Action :=
  .deliver 0 (message "hello" false) 0 :: go 1 5 ++ .deliver 1 (message "buy" true) 0 :: go 2 2

/-- Two calls look for the approval before either has created it, and the later one writes first. -/
def racingRun : List Action :=
  .deliver 0 (message "buy" false) 0 :: .deliver 1 (message "buy" false) 0 :: go 1 3 ++ go 2 3 ++
    go 1 1 ++ go 2 4 ++ go 1 1

/-- The process dies between the approval and the row, and the message is replayed too late. -/
def crashedRun : List Action :=
  .deliver 0 (message "buy" false) 0 :: go 1 4 ++ .crash ::
    .deliver 0 (message "buy" false) 601000000 :: go 1 5

def pausedRun : List Action :=
  .deliver 0 (message "buy" false) 0 :: go 1 3 ++ [.setStatus "wayond" .paused]

/-- Whether an approval has a genuine row with another outcome than an intake. -/
def Ledger.disagrees (ledger : Ledger) : Bool :=
  (ledger.approvals.get identity).isSome &&
    (ledger.acquired.get identity.genuine).any fun row => row.outcome ≠ .intaken ∧ row.approval = none

end SignalIntake
end GuvFX
