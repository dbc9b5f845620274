/-
# Edits of a signal that waits for its decision

An edit of an acquired message is recorded once for each text, and is compared with the approval of the
message in the tradeable values: the entry, the stop loss and the first take profit.  The approval
keeps its values; all that an edit can do to it is to flag it for a second review.
-/
import GuvFX.SignalIntake.Acquisition
import Mathlib.Data.List.Induction

namespace GuvFX
namespace SignalIntake

def processEdit (env : Env) (ledger : Ledger) (edit : Call × ℤ) : Ledger :=
  let opened := callStep env ledger { edit.1 with phase := .opening } none edit.2
  (callStep env opened.1 { edit.1 with phase := opened.2 } none edit.2).1

structure EditOf (profile : String) (original : AcquiredMessage) (call : Call) : Prop where
  key : call.key = original.key
  armed : call.provider.isArmed = true
  trusted : chatIdentityRefusal call.provider call.message.chatId = none
  profile : call.provider.parserProfile = profile
  edited : call.message.editDate = true ∨ Text.strip call.message.text ≠ Text.strip original.text

/-- The edited text reads as a tradeable signal with another entry, stop loss or first take profit. -/
def Caught (env : Env) (profile : String) (a : PendingSignalApproval) (call : Call) : Prop :=
  ∃ parsed, env.parse profile call.message.text call.message.mid = some parsed ∧
    parsed.isTradeableShape = true ∧ (a.entry ≠ parsed.entry ∨ a.stopLoss ≠ parsed.stopLoss ∨
      a.takeProfit ≠ parsed.takeProfits.headD "")

variable {env : Env} {profile : String} {ledger after : Ledger} {original : AcquiredMessage}
  {k : ApprovalKey} {a : PendingSignalApproval} {call : Call} {parsed : ParsedSignal}

lemma changedFields_ne_nil : changedFields a parsed ≠ [] ↔
    a.entry ≠ parsed.entry ∨ a.stopLoss ≠ parsed.stopLoss ∨
      a.takeProfit ≠ parsed.takeProfits.headD "" := by
  simp only [changedFields, ne_eq, List.filter_eq_nil_iff, List.mem_cons, List.not_mem_nil]
  simp
  tauto

lemma processEdit_eq (h : EditOf profile original call) (hrow : ledger.acquired.get original.key =
    some original) (clock : ℤ) : processEdit env ledger (call, clock) =
      recordAmendment env ledger call.provider original call.message call.now := by
  have hopen : callStep env ledger { call with phase := .opening } none clock =
      (ledger, .amending original) := by
    have hkey : ({ call with phase := .opening } : Call).key = original.key := h.key
    simp only [callStep, hkey, hrow, h.armed, h.trusted]
    rcases h.edited with hedit | htext
    · simp [hedit]
    · simp [htext]
  rw [processEdit]
  dsimp only
  rw [hopen]
  rfl

/-- What the edits `es` have made of a ledger. -/
structure Reviewed (env : Env) (profile : String) (ledger : Ledger) (original : AcquiredMessage)
    (k : ApprovalKey) (a : PendingSignalApproval) (es : List (Call × ℤ)) (after : Ledger) : Prop where
  acquired : after.acquired = ledger.acquired
  approval : ∃ flag, after.approvals.get k = some { a with sourceEdited := flag } ∧
    (flag = true ↔ a.sourceEdited = true ∨ ∃ e ∈ es, Caught env profile a e.1)
  recorded : ∀ hash, (after.amendments.get (original.key, hash)).isSome = true ↔
    ∃ e ∈ es, env.digest e.1.message.text = hash

/-- What an edit with a text that has not been recorded makes of a ledger: the text is recorded, and
the approval is flagged if the edit is caught. -/
def FirstSeen (env : Env) (profile : String) (ledger : Ledger) (original : AcquiredMessage)
    (k : ApprovalKey) (a : PendingSignalApproval) (call : Call) (after : Ledger) : Prop :=
  after.acquired = ledger.acquired ∧
  (∃ flag, after.approvals.get k = some { a with sourceEdited := flag } ∧
    (flag = true ↔ a.sourceEdited = true ∨ Caught env profile a call)) ∧
  ∃ amendment : MessageAmendment, amendment.key = (original.key, env.digest call.message.text) ∧
    after.amendments = ledger.amendments.insertOrIgnore amendment

lemma recordAmendment_fresh (hcall : EditOf profile original call) (happroval : original.approval = some k)
    (hget : ledger.approvals.get k = some a)
    (hfresh : ledger.amendments.get (original.key, env.digest call.message.text) = none) :
    FirstSeen env profile ledger original k a call
      (recordAmendment env ledger call.provider original call.message call.now) := by
  have hkey : a.key = k := (Rows.get_eq_some_iff.mp hget).2
  have hflagged : (ledger.approvals.modify (flagged a.key) (key_flagged a.key)).get k =
      some { a with sourceEdited := true } := by
    rw [Rows.get_modify, hget, Option.map_some, flagged, if_pos rfl]
  have hend : ∀ (changed : List (String × String × String)) (amendment : MessageAmendment),
      amendment.key = (original.key, env.digest call.message.text) →
      (Caught env profile a call ↔ changed ≠ []) →
      let recorded := { ledger with amendments := ledger.amendments.insertOrIgnore amendment }
      FirstSeen env profile ledger original k a call (if changed ≠ [] && !a.sourceEdited then
        { recorded with approvals := recorded.approvals.modify (flagged a.key) (key_flagged a.key) }
        else recorded) := by
    intro changed amendment hamendment hcaught recorded
    by_cases hflag : changed ≠ [] ∧ a.sourceEdited = false
    · rw [if_pos (by simpa using hflag)]
      exact ⟨rfl, ⟨true, hflagged, by simp [hcaught, hflag.1]⟩, amendment, hamendment, rfl⟩
    · rw [if_neg (by simpa using hflag)]
      refine ⟨rfl, ⟨a.sourceEdited, hget, ?_⟩, amendment, hamendment, rfl⟩
      rw [hcaught]
      exact ⟨.inl, fun h => h.elim id fun hne => by simpa [hne] using hflag⟩
  simp only [recordAmendment, hfresh, happroval, Option.bind_some, hget]
  cases hparse : env.parse call.provider.parserProfile call.message.text call.message.mid with
  | none => exact hend [] _ rfl (by simp [Caught, ← hcall.profile, hparse])
  | some parsed =>
    refine hend _ _ rfl ?_
    cases hshape : parsed.isTradeableShape <;>
      simp [Caught, ← hcall.profile, hparse, hshape, changedFields_ne_nil]

/-- One edit more. -/
lemma Reviewed.step (hdigest : Function.Injective env.digest) {es : List (Call × ℤ)} {e : Call × ℤ}
    (h : Reviewed env profile ledger original k a es after)
    (hrow : ledger.acquired.get original.key = some original) (happroval : original.approval = some k)
    (hes : ∀ e ∈ es, EditOf profile original e.1) (he : EditOf profile original e.1) :
    Reviewed env profile ledger original k a (es ++ [e]) (processEdit env after e) := by
  obtain ⟨flag, hget, hflag⟩ := h.approval
  have hmore : ∀ p : Call × ℤ → Prop, (∃ e' ∈ es ++ [e], p e') ↔ (∃ e' ∈ es, p e') ∨ p e := by
    intro p
    simp [or_and_right, exists_or]
  rw [processEdit_eq he (h.acquired ▸ hrow)]
  cases hold : after.amendments.get (original.key, env.digest e.1.message.text) with
  | some amendment =>
    -- the text has been seen before, and was read then as it is read now
    obtain ⟨e', he', htext⟩ := (h.recorded _).mp (Option.isSome_iff_exists.mpr ⟨_, hold⟩)
    have hsame : Caught env profile a e.1 ↔ Caught env profile a e'.1 := by
      have hmid : e.1.message.mid = e'.1.message.mid :=
        (congrArg AcquiredKey.messageId he.key).trans (congrArg AcquiredKey.messageId (hes e' he').key).symm
      rw [Caught, Caught, hdigest htext, hmid]
    have hkept : recordAmendment env after e.1.provider original e.1.message e.1.now = after := by
      simp only [recordAmendment, hold]
    rw [hkept]
    refine ⟨h.acquired, ⟨flag, hget, ?_⟩, fun hash => ?_⟩
    · rw [hflag, hmore, hsame]
      exact or_congr_right ⟨.inl, fun hor => hor.elim id fun hc => ⟨e', he', hc⟩⟩
    · rw [h.recorded, hmore]
      exact ⟨.inl, fun hor => hor.elim id fun hhash => ⟨e', he', htext.trans hhash⟩⟩
  | none =>
    obtain ⟨hacquired, ⟨flag', hget', hflag'⟩, amendment, hkey, hrows⟩ :=
      recordAmendment_fresh he happroval hget hold
    refine ⟨hacquired.trans h.acquired, ⟨flag', hget', ?_⟩, fun hash => ?_⟩
    · rw [hflag', hmore, ← or_assoc, ← hflag]
      rfl
    · rw [hrows, Rows.get_insertOrIgnore, hkey, hmore, ← h.recorded]
      split_ifs with hhash
      · exact iff_of_true rfl (.inr (Prod.mk.inj hhash).2)
      · exact ⟨.inl, fun hor => hor.resolve_right fun h' => hhash (by rw [h'])⟩

/-- **Edits flag the approval.**  Whatever edits of a message with an approval come, the approval is
flagged when one of them reads as a tradeable signal with another entry, stop loss or first take
profit; nothing else of it changes, and the row of the message stays. -/
theorem edits_flag (hdigest : Function.Injective env.digest) (es : List (Call × ℤ))
    (hrow : ledger.acquired.get original.key = some original) (happroval : original.approval = some k)
    (hget : ledger.approvals.get k = some a)
    (hnone : ∀ hash, ledger.amendments.get (original.key, hash) = none)
    (hes : ∀ e ∈ es, EditOf profile original e.1) :
    let after := es.foldl (processEdit env) ledger
    after.acquired = ledger.acquired ∧
    ∃ flag, after.approvals.get k = some { a with sourceEdited := flag } ∧
      (flag = true ↔ a.sourceEdited = true ∨ ∃ e ∈ es, Caught env profile a e.1) := by
  have hreviewed : Reviewed env profile ledger original k a es (es.foldl (processEdit env) ledger) := by
    induction es using List.reverseRecOn with
    | nil => exact ⟨rfl, ⟨a.sourceEdited, hget, by simp⟩, fun hash => by simp [hnone]⟩
    | append_singleton es e ih =>
      rw [List.foldl_concat]
      have hbefore : ∀ e ∈ es, EditOf profile original e.1 := fun e he =>
        hes e (List.mem_append_left _ he)
      exact (ih hbefore).step hdigest hrow happroval hbefore (hes e (by simp))
  exact ⟨hreviewed.acquired, hreviewed.approval⟩

/-! ### An edit that turns the trade around -/

def buyText : String := "NZDJPY | BUY 91.300\nStop Loss 90.900"
def sellText : String := "NZDJPY | SELL 91.300\nStop Loss 90.900"

def turningEnv : Env where
  parse _ text _ := if text = buyText ∨ text = sellText then
      some { kind := .signal, market := "NZDJPY", entry := "91.300", stopLoss := "90.900",
             direction := if text = buyText then "BUY" else "SELL" }
    else none
  digest text := text

def turningCall : Call where
  provider := { slug := "wayond", telegramChatId := "-100", status := .armed, parserProfile := "wayond" }
  message := { id := 9, chatId := "-100", text := sellText, date := some 0, editDate := true }
  now := 0
  phase := .opening

def boughtRow : AcquiredMessage :=
  { turningCall.row .intaken "" (some turningCall.approvalKey) 0 with text := buyText, editDate := false }

def boughtApproval : PendingSignalApproval :=
  { key := turningCall.approvalKey, symbol := "NZDJPY", direction := "BUY", entry := "91.300",
    stopLoss := "90.900", status := .pendingApproval }

def boughtLedger : Ledger where
  providers := ⟨[turningCall.provider], List.pairwise_singleton _ _⟩
  acquired := ⟨[boughtRow], List.nodup_singleton _⟩
  approvals := ⟨[boughtApproval], List.nodup_singleton _⟩

lemma editOf_turningCall : EditOf "wayond" boughtRow turningCall :=
  ⟨by decide +kernel, rfl, by decide +kernel, rfl, .inl rfl⟩

theorem edits_flag_turned :
    let after := [(turningCall, (0 : ℤ))].foldl (processEdit turningEnv) boughtLedger
    after.acquired = boughtLedger.acquired ∧
    ∃ flag, after.approvals.get boughtApproval.key = some { boughtApproval with sourceEdited := flag } ∧
      (flag = true ↔ boughtApproval.sourceEdited = true ∨
        ∃ e ∈ [(turningCall, (0 : ℤ))], Caught turningEnv "wayond" boughtApproval e.1) :=
  have hrow : boughtLedger.acquired.get boughtRow.key = some boughtRow := by decide +kernel
  edits_flag (fun _ _ h => h) _ hrow rfl (by decide +kernel) (fun _ => rfl) (by
    intro e he
    rw [List.mem_singleton.mp he]
    exact editOf_turningCall)

/-- The edit sells where the approval buys, and the approval is not flagged. -/
theorem turned_not_flagged : EditOf "wayond" boughtRow turningCall ∧
    (turningEnv.parse "wayond" sellText turningCall.message.mid).map ParsedSignal.direction = some "SELL" ∧
    (processEdit turningEnv boughtLedger (turningCall, 0)).approvals.get boughtApproval.key =
      some boughtApproval ∧ boughtApproval.direction = "BUY" ∧ boughtApproval.sourceEdited = false :=
  ⟨editOf_turningCall, by decide +kernel, by decide +kernel, rfl, rfl⟩

end SignalIntake
end GuvFX
