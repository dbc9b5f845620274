/-
# Replication intents

For an event of a master and one of its followers, one row records what is to be copied: the
operation, the sized volume, the translated symbol and levels, or the reason why nothing is.  A
sweep takes the events that have no row yet, in the order of their masters and of their numbers,
up to a limit, and records the rows of all followers of each of them.  An error that one follower
raises leaves the others alone.
-/
import GuvFX.TradeCopier.LiveExecution

namespace GuvFX
namespace Replication

open Decimal (quantize)
open Diff (EventType hasLevel)
open Follower
open Consumer (RequestedOp ReplicationStatus)
open LiveExecution (MasterPosition)
open Text (clip)

/-! ### Translation of the protective levels -/

/-- How the levels of a master become those of a follower; the column may hold other text. -/
inductive SltpTranslation where
  | samePrice
  | sameDistance
  | none_
  | unknown
  deriving DecidableEq, Repr

structure TranslatedLevels where
  ok : Bool
  sl : Option ℚ
  tp : Option ℚ
  reason : String
  deriving DecidableEq, Repr

def level (v : Option ℚ) : Option ℚ := if hasLevel v then v else none

/-- The levels that a follower is to have. -/
def translateSltp (policy : SltpTranslation) (masterEntry masterSl masterTp : Option ℚ)
    (followerEntry : Option ℚ := none) : TranslatedLevels :=
  match policy with
  | .none_ => ⟨true, none, none, "policy_none"⟩
  | .samePrice => ⟨true, level masterSl, level masterTp, "same_price"⟩
  | .sameDistance =>
    match level masterEntry, level followerEntry with
    | some me, some fe =>
      ⟨true, (level masterSl).map fun v => fe + (v - me),
        (level masterTp).map fun v => fe + (v - me), "same_distance"⟩
    | _, _ => ⟨false, none, none, "requires_entry_prices"⟩
  | .unknown => ⟨false, none, none, "unknown_policy"⟩

/-! ### Records -/

/-- What becomes of the copies of a follower that is disabled; the column may hold other text. -/
inductive DisablePolicy where
  | keepManaging
  | detach
  | close
  | unknown
  deriving DecidableEq, Repr

structure CopierFollower where
  masterAccountId : ℕ
  followerAccountId : ℕ
  enabled : Bool
  sizing : FollowerSizing
  sltpTranslation : SltpTranslation
  disablePolicy : DisablePolicy
  deriving DecidableEq, Repr

/-- An event of a master; a type that is not known is `none`. -/
structure MasterEvent where
  masterAccountId : ℕ
  sequence : ℕ
  eventType : Option EventType
  positionTicket : ℤ
  symbol : String
  side : String
  volumeAfter : ℚ
  volumeDelta : ℚ
  newSl : Option ℚ
  newTp : Option ℚ
  deriving DecidableEq, Repr

/-- A row of the replication ledger; the operation of an unknown event is `none`. -/
structure CopierReplication where
  masterEventId : ℕ
  followerId : ℕ
  requestedOp : Option RequestedOp
  status : ReplicationStatus
  reason : String
  targetVolume : Option ℚ := none
  sizingDetail : String := ""
  followerSymbol : String := ""
  translatedSl : Option ℚ := none
  translatedTp : Option ℚ := none
  constraintsAuthoritative : Bool := false
  sltpTranslationOk : Bool := true
  deriving DecidableEq, Repr

/-- What the replication reads besides its ledger. -/
structure Facts where
  accounts : ℕ → TradingAccount
  symbolMaps : List SymbolMap
  instruments : ℕ → String → Option BrokerInstrument
  masterPosition : ℕ → Option MasterPosition

/-- The rows of the replication. -/
structure Db where
  events : Table MasterEvent
  followers : Table CopierFollower
  replications : List CopierReplication

/-! ### One follower -/

def opForEvent : EventType → RequestedOp
  | .open_ => .open_
  | .volumeIncrease => .scaleIn
  | .fullClose => .close
  | .partialClose => .partialClose
  | .slSet | .slChange | .slRemove | .tpSet | .tpChange | .tpRemove => .modifySltp

def openLike (eventType : EventType) : Bool :=
  eventType = .open_ ∨ eventType = .volumeIncrease

def closeLike (eventType : EventType) : Bool :=
  eventType = .fullClose ∨ eventType = .partialClose

def participation (follower : CopierFollower) (eventType : EventType) : Option String :=
  if follower.enabled then none
  else if openLike eventType then some "disabled_no_new_entries"
  else
    match follower.disablePolicy with
    | .keepManaging => none
    | .detach => some "detached_manual"
    | .close => if closeLike eventType then none else some "closing_policy_skips_modify"
    | .unknown => some "disabled"

/-- A row that records no intent. -/
def refusal (k f : ℕ) (op : Option RequestedOp) (status : ReplicationStatus) (reason : String)
    (followerSymbol : String := "") : CopierReplication :=
  { masterEventId := k, followerId := f, requestedOp := op, status, reason := clip 64 reason
    followerSymbol }

def openIntent (w : Facts) (k : ℕ) (event : MasterEvent) (eventType : EventType) (f : ℕ)
    (follower : CopierFollower) (symbol : String) : CopierReplication :=
  let op := opForEvent eventType
  let masterVolume := if eventType = .open_ then event.volumeAfter else event.volumeDelta
  let constraints := brokerConstraints (w.instruments follower.followerAccountId symbol)
  let sr := computeFollowerVolume (some masterVolume) follower.sizing constraints
  if !sr.ok then refusal k f (some op) .rejected sr.detail symbol
  else
    let note := if constraints.authoritative then "c:auth" else "c:unverified"
    let tr :=
      match w.masterPosition k with
      | some snap => translateSltp follower.sltpTranslation snap.priceOpen snap.sl snap.tp
      | none => translateSltp follower.sltpTranslation none event.newSl event.newTp
    { masterEventId := k, followerId := f, requestedOp := some op, status := .shadowRecorded
      reason := "", targetVolume := sr.volume.map (quantize 3)
      sizingDetail := clip 64 (sr.detail ++ ";" ++ note ++ ";sltp:" ++ tr.reason)
      followerSymbol := symbol, translatedSl := tr.sl.map (quantize 10)
      translatedTp := tr.tp.map (quantize 10)
      constraintsAuthoritative := constraints.authoritative, sltpTranslationOk := tr.ok }

/-- The intent of an event that moves a protective level; it needs the complete levels of the poll
that the event came from. -/
def modifyIntent (w : Facts) (k : ℕ) (eventType : EventType) (f : ℕ) (follower : CopierFollower)
    (symbol : String) : CopierReplication :=
  let op := opForEvent eventType
  match w.masterPosition k with
  | none => refusal k f (some op) .rejected "master_state_unavailable" symbol
  | some snap =>
    let tr := translateSltp follower.sltpTranslation snap.priceOpen snap.sl snap.tp
    { masterEventId := k, followerId := f, requestedOp := some op, status := .shadowRecorded
      reason := "", sizingDetail := clip 64 ("sltp:" ++ tr.reason), followerSymbol := symbol
      translatedSl := tr.sl.map (quantize 10), translatedTp := tr.tp.map (quantize 10)
      constraintsAuthoritative := true, sltpTranslationOk := tr.ok }

def intent (w : Facts) (k : ℕ) (event : MasterEvent) (f : ℕ) (follower : CopierFollower) :
    CopierReplication :=
  let macct := w.accounts follower.masterAccountId
  let facct := w.accounts follower.followerAccountId
  match event.eventType with
  | none => refusal k f none .rejected "unknown_event_type"
  | some eventType =>
    let op := some (opForEvent eventType)
    match Checks.firstRefusal (validateFollowerBinding follower.masterAccountId
        follower.followerAccountId macct facct) with
    | some reason => refusal k f op .rejected reason
    | none =>
      match participation follower eventType with
      | some reason => refusal k f op .skipped reason
      | none =>
        let sym := resolveFollowerSymbol w.symbolMaps macct event.symbol facct
        if !sym.ok then refusal k f op .rejected sym.reason
        else if openLike eventType then openIntent w k event eventType f follower sym.followerSymbol
        else if closeLike eventType then
          { masterEventId := k, followerId := f, requestedOp := op, status := .shadowRecorded
            reason := "", followerSymbol := sym.followerSymbol
            constraintsAuthoritative := true }
        else modifyIntent w k eventType f follower sym.followerSymbol

def hasRow (db : Db) (k f : ℕ) : Bool :=
  db.replications.any fun row => row.masterEventId = k ∧ row.followerId = f

/-- Record the row of an event and a follower, unless there is one. -/
def replicateOne (w : Facts) (k : ℕ) (event : MasterEvent) (db : Db)
    (follower : ℕ × CopierFollower) : Db :=
  if hasRow db k follower.1 then db
  else
    { db with
      replications := db.replications ++ [intent w k event follower.1 follower.2] }

/-! ### The sweep -/

def followersOf (db : Db) (masterAccountId : ℕ) : List (ℕ × CopierFollower) :=
  db.followers.filter fun _ follower => follower.masterAccountId = masterAccountId

/-- Record the rows of an event; a follower that raises an error is passed over. -/
def replicateMasterEvent (w : Facts) (raises : ℕ → ℕ → Bool) (db : Db) (event : ℕ × MasterEvent) :
    Db :=
  (followersOf db event.2.masterAccountId).foldl
    (fun db follower =>
      if raises event.1 follower.1 then db else replicateOne w event.1 event.2 db follower) db

/-- The order of the sweep. -/
def SweptBefore (e e' : ℕ × MasterEvent) : Prop :=
  e.2.masterAccountId < e'.2.masterAccountId ∨
    e.2.masterAccountId = e'.2.masterAccountId ∧ e.2.sequence ≤ e'.2.sequence

instance : DecidableRel SweptBefore := fun _ _ => inferInstanceAs (Decidable (_ ∨ _ ∧ _))

def inOrder (db : Db) : List (ℕ × MasterEvent) := db.events.rows.insertionSort SweptBefore

/-- Has the event no row at all? -/
def unreplicated (db : Db) (k : ℕ) : Bool :=
  !db.replications.any fun row => row.masterEventId = k

def window (db : Db) (limit : ℕ) : List (ℕ × MasterEvent) :=
  ((inOrder db).filter fun e => unreplicated db e.1).take limit

/-- One sweep, in which `raises` says where an error is raised. -/
def replicatePending (w : Facts) (raises : ℕ → ℕ → Bool) (limit : ℕ) (db : Db) : Db :=
  (window db limit).foldl (replicateMasterEvent w raises) db

/-! ### What a sweep writes -/

section Spec

variable {w : Facts} {raises : ℕ → ℕ → Bool} {db : Db} {k f : ℕ} {event : MasterEvent}

lemma intent_keys (w : Facts) (k : ℕ) (event : MasterEvent) (f : ℕ) (follower : CopierFollower) :
    (intent w k event f follower).masterEventId = k ∧
      (intent w k event f follower).followerId = f := by
  unfold intent openIntent modifyIntent refusal
  dsimp only
  split
  · exact ⟨rfl, rfl⟩
  · split
    · exact ⟨rfl, rfl⟩
    · split
      · exact ⟨rfl, rfl⟩
      · split_ifs <;> try exact ⟨rfl, rfl⟩
        split <;> exact ⟨rfl, rfl⟩

/-- What a sweep does not touch. -/
structure Extends (db db' : Db) : Prop where
  events : db'.events = db.events
  followers : db'.followers = db.followers

lemma Extends.refl (db : Db) : Extends db db := ⟨rfl, rfl⟩

lemma Extends.trans {db' db'' : Db} (h : Extends db db') (h' : Extends db' db'') :
    Extends db db'' := ⟨h'.events.trans h.events, h'.followers.trans h.followers⟩

lemma extends_replicateOne (w : Facts) (k : ℕ) (event : MasterEvent) (db : Db)
    (follower : ℕ × CopierFollower) : Extends db (replicateOne w k event db follower) := by
  unfold replicateOne
  split_ifs <;> exact ⟨rfl, rfl⟩

lemma hasRow_replicateOne (follower : ℕ × CopierFollower) (k' f' : ℕ) :
    hasRow (replicateOne w k event db follower) k' f' = true ↔
      hasRow db k' f' = true ∨ k' = k ∧ f' = follower.1 := by
  unfold replicateOne
  split_ifs with h
  · constructor
    · exact Or.inl
    · rintro (hrow | ⟨rfl, rfl⟩)
      · exact hrow
      · exact h
  · obtain ⟨hk, hf⟩ := intent_keys w k event follower.1 follower.2
    simp only [hasRow, List.any_append, List.any_cons, List.any_nil, Bool.or_false,
      Bool.or_eq_true, hk, hf, decide_eq_true_eq]
    exact or_congr_right (and_congr eq_comm eq_comm)

lemma replicate_followers (w : Facts) (raises : ℕ → ℕ → Bool) (k : ℕ) (event : MasterEvent)
    (followers : List (ℕ × CopierFollower)) (db : Db) :
    let db' := followers.foldl (fun db follower =>
      if raises k follower.1 then db else replicateOne w k event db follower) db
    Extends db db' ∧ ∀ k' f', hasRow db' k' f' = true ↔
      hasRow db k' f' = true ∨
        k' = k ∧ raises k f' = false ∧ ∃ follower, (f', follower) ∈ followers := by
  induction followers generalizing db with
  | nil => exact ⟨.refl db, fun k' f' => by simp⟩
  | cons e followers ih =>
    intro db'
    obtain ⟨f, follower⟩ := e
    by_cases hraise : raises k f = true
    · have hdb : db' = followers.foldl (fun db follower =>
          if raises k follower.1 then db else replicateOne w k event db follower) db := by
        simp only [db', List.foldl_cons, hraise, if_true]
      obtain ⟨hext, hrow⟩ := ih db
      rw [hdb]
      refine ⟨hext, fun k' f' => ?_⟩
      rw [hrow]
      refine or_congr_right (and_congr_right fun _ => and_congr_right fun hno => ?_)
      constructor
      · rintro ⟨g, hg⟩
        exact ⟨g, List.mem_cons_of_mem _ hg⟩
      · rintro ⟨g, hg⟩
        rcases List.mem_cons.mp hg with heq | hg
        · obtain ⟨rfl, -⟩ := Prod.mk.inj heq
          rw [hraise] at hno
          cases hno
        · exact ⟨g, hg⟩
    · have hdb : db' = followers.foldl (fun db follower =>
          if raises k follower.1 then db else replicateOne w k event db follower)
          (replicateOne w k event db (f, follower)) := by
        simp only [db', List.foldl_cons, hraise, Bool.false_eq_true, if_false]
      obtain ⟨hext, hrow⟩ := ih (replicateOne w k event db (f, follower))
      rw [hdb]
      refine ⟨(extends_replicateOne w k event db (f, follower)).trans hext, fun k' f' => ?_⟩
      rw [hrow, hasRow_replicateOne]
      constructor
      · rintro ((hrow | ⟨rfl, rfl⟩) | ⟨rfl, hno, g, hg⟩)
        · exact Or.inl hrow
        · exact Or.inr ⟨rfl, by simpa using hraise, follower, List.mem_cons_self⟩
        · exact Or.inr ⟨rfl, hno, g, List.mem_cons_of_mem _ hg⟩
      · rintro (hrow | ⟨rfl, hno, g, hg⟩)
        · exact Or.inl (Or.inl hrow)
        · rcases List.mem_cons.mp hg with heq | hg
          · obtain ⟨rfl, -⟩ := Prod.mk.inj heq
            exact Or.inl (Or.inr ⟨rfl, rfl⟩)
          · exact Or.inr ⟨rfl, hno, g, hg⟩

/-- Is the account of the follower `f` a copy of the master? -/
def follows (db : Db) (masterAccountId f : ℕ) : Prop :=
  ∃ follower, (f, follower) ∈ followersOf db masterAccountId

lemma replicateMasterEvent_spec (w : Facts) (raises : ℕ → ℕ → Bool) {db₁ : Db}
    (h : Extends db db₁) (e : ℕ × MasterEvent) :
    Extends db (replicateMasterEvent w raises db₁ e) ∧ ∀ k f,
      hasRow (replicateMasterEvent w raises db₁ e) k f = true ↔
        hasRow db₁ k f = true ∨
          k = e.1 ∧ raises e.1 f = false ∧ follows db e.2.masterAccountId f := by
  have hfollowers : followersOf db₁ e.2.masterAccountId
      = followersOf db e.2.masterAccountId := by
    rw [followersOf, h.followers, followersOf]
  obtain ⟨hext, hrow⟩ := replicate_followers w raises e.1 e.2
    (followersOf db₁ e.2.masterAccountId) db₁
  refine ⟨h.trans hext, fun k f => ?_⟩
  rw [follows, ← hfollowers]
  exact hrow k f

/-- **What a sweep writes**: the rows of the followers of the events that it takes, except where an
error is raised. -/
theorem replicatePending_spec (w : Facts) (raises : ℕ → ℕ → Bool) (limit : ℕ) (db : Db) :
    Extends db (replicatePending w raises limit db) ∧ ∀ k f,
      hasRow (replicatePending w raises limit db) k f = true ↔
        hasRow db k f = true ∨
          ∃ event, (k, event) ∈ window db limit ∧ raises k f = false ∧
            follows db event.masterAccountId f := by
  have hfold : ∀ (events : List (ℕ × MasterEvent)) (db₁ : Db), Extends db db₁ →
      Extends db (events.foldl (replicateMasterEvent w raises) db₁) ∧ ∀ k f,
        hasRow (events.foldl (replicateMasterEvent w raises) db₁) k f = true ↔
          hasRow db₁ k f = true ∨ ∃ event, (k, event) ∈ events ∧ raises k f = false ∧
            follows db event.masterAccountId f := by
    intro events
    induction events with
    | nil => exact fun db₁ h => ⟨h, fun k f => by simp⟩
    | cons e events ih =>
      intro db₁ h
      obtain ⟨hext, hstep⟩ := replicateMasterEvent_spec w raises h e
      obtain ⟨hext', hrow⟩ := ih (replicateMasterEvent w raises db₁ e) hext
      refine ⟨hext', fun k f => ?_⟩
      rw [List.foldl_cons, hrow k f]
      rw [hstep, or_assoc]
      refine or_congr_right ?_
      constructor
      · rintro (⟨rfl, hno, hf⟩ | ⟨event, hevent, hrest⟩)
        · exact ⟨e.2, List.mem_cons_self, hno, hf⟩
        · exact ⟨event, List.mem_cons_of_mem _ hevent, hrest⟩
      · rintro ⟨event, hevent, hno, hf⟩
        rcases List.mem_cons.mp hevent with rfl | hevent
        · exact Or.inl ⟨rfl, hno, hf⟩
        · exact Or.inr ⟨event, hevent, hno, hf⟩
  exact hfold (window db limit) db (.refl db)

end Spec

end Replication
end GuvFX
