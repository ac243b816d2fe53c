import DigRelay.Common.Text
import DigRelay.Safety.DhtAggregate
import DigRelay.Safety.DhtAnswers
import DigRelay.Server.Call
import DigRelay.Server.Script
import Mathlib.Algebra.Group.Action.Defs
import Mathlib.Algebra.Order.BigOperators.Group.List

/-!
# The size of the published DHT view

A view has at most as many keys as are published, but a key is whatever string a client chose. The
bytes of a view are bounded by the relay's own constants as far as the stored answers keep to the
documented form of a content key; beyond it only the largest message a client may send bounds them.
-/

namespace DigRelay

open Common

variable {crates : Crates} {setup : Setup} {sys sys' : System crates} {label : Label crates}

/-- The number of digits of a content key. -/
def contentKeyLen : ℕ := 64

/-- The documented form of a content key: that many hexadecimal digits and nothing else. -/
def IsContentKey (key : String) : Prop :=
  key.toList.length = contentKeyLen ∧ ∀ c ∈ key.toList, (toDigit 16 c).isSome = true

instance : DecidablePred IsContentKey := fun key =>
  decidable_of_iff
    (key.toList.length = contentKeyLen ∧ (key.toList.all fun c => (toDigit 16 c).isSome) = true)
    (and_congr_right fun _ => List.all_eq_true)

/-- An answer names only keys of the documented form. -/
def PeerAnswer.WellKeyed (answer : PeerAnswer) : Prop :=
  ∀ record ∈ answer.records, IsContentKey record.contentKey

instance : DecidablePred PeerAnswer.WellKeyed := fun answer =>
  inferInstanceAs (Decidable (∀ record ∈ answer.records, IsContentKey record.contentKey))

/-- The bytes of all published keys. -/
def DhtView.keyBytes (view : DhtView) : ℕ :=
  (view.keys.map fun entry => utf8Len entry.contentKey.toList).sum

/-- A content key has as many bytes as digits. -/
theorem IsContentKey.utf8Len_eq {key : String} (h : IsContentKey key) :
    utf8Len key.toList = contentKeyLen := by
  obtain ⟨hlength, hdigits⟩ := h
  rw [utf8Len_of_ascii fun c hc => toDigit_ascii (hdigits c hc), hlength]

/-- A published key was named by a record of some answer. -/
theorem exists_record_of_mem_keys {answers : List PeerAnswer} {generatedAt : ℕ}
    {entry : DhtViewEntry} (h : entry ∈ (buildDhtView answers generatedAt).keys) :
    ∃ answer ∈ answers, ∃ record ∈ answer.records, record.contentKey = entry.contentKey := by
  have hnamed := (mem_ranked.mp (List.mem_of_mem_take h)).1
  obtain ⟨record, hrecord, hkey⟩ := List.mem_map.mp hnamed
  obtain ⟨answer, hanswer, hmem⟩ := List.mem_flatMap.mp hrecord
  exact ⟨answer, hanswer, record, hmem, hkey⟩

/-- No access changes the published view. -/
theorem Touch.dhtView {relay relay' : Relay crates} {conn : Conn crates}
    (h : Touch relay conn relay') : relay'.dhtView = relay.dhtView := by
  cases h with
  | answer =>
    unfold Relay.recordDhtAnswer
    split
    · split <;> rfl
    · rfl
  | traffic =>
    unfold Relay.recordRelayed
    split
    case h_4 => split <;> rfl
    all_goals rfl
  | _ => rfl

/-- A published view stays until the next one is built. -/
theorem next_dhtView (h : Next setup sys label sys') :
    sys'.relay.dhtView = sys.relay.dhtView ∨
      ∃ now, sys'.relay.dhtView = buildDhtView sys.relay.dhtAnswers now := by
  by_cases hlabel : label.isBackground = true
  · cases next_background h hlabel with
    | built now => exact .inr ⟨now, rfl⟩
    | _ => exact .inl rfl
  · left
    cases next_move h with
    | wrote hback | closed hback | background _ hback => exact absurd hback hlabel
    | accessed hconn houtbox haccess => exact (access_touch haccess).dhtView
    | swept now =>
      change (sweepLocked setup sys now).2.dhtView = _
      rw [sweepLocked, pruneLocked_frame]
    | rehashed hrehash =>
      obtain ⟨_, _, _, _, _, -, -, -, -, -, rfl⟩ := hrehash
      rfl
    | _ => rfl

/-- The stored answers and the published view name only keys of the documented form. -/
structure System.WellKeyed (sys : System crates) : Prop where
  stored : ∀ answer ∈ sys.relay.dhtAnswers, answer.WellKeyed
  published : ∀ entry ∈ sys.relay.dhtView.keys, IsContentKey entry.contentKey

/-- Storing only well-keyed answers leaves only keys of the documented form. -/
theorem System.WellKeyed.next (h : sys.WellKeyed) (hnext : Next setup sys label sys')
    (hanswer : ∀ answer, storedAnswer sys label = some answer → answer.WellKeyed) :
    sys'.WellKeyed where
  stored := by
    intro answer hmem
    rw [next_dhtAnswers hnext] at hmem
    split at hmem
    · cases hmem
    · rcases List.mem_append.mp hmem with hold | hnew
      · exact h.stored answer hold
      · exact hanswer answer (Option.mem_toList.mp hnew)
  published := by
    rcases next_dhtView hnext with hsame | ⟨now, hbuilt⟩
    · rw [hsame]
      exact h.published
    · rw [hbuilt]
      intro entry hentry
      obtain ⟨answer, hmem, record, hrecord, hkey⟩ := exists_record_of_mem_keys hentry
      rw [← hkey]
      exact h.stored answer hmem record hrecord

/-- A view of content keys has at most as many bytes as all published keys can have digits. -/
theorem keyBytes_le {view : DhtView} (hkeys : ∀ entry ∈ view.keys, IsContentKey entry.contentKey)
    (hlength : view.keys.length ≤ maxPublishedKeys) :
    view.keyBytes ≤ maxPublishedKeys * contentKeyLen := by
  have hsum : view.keyBytes ≤ (view.keys.map fun entry => utf8Len entry.contentKey.toList).length •
      contentKeyLen := by
    apply List.sum_le_card_nsmul
    intro bytes hbytes
    obtain ⟨entry, hentry, rfl⟩ := List.mem_map.mp hbytes
    exact (hkeys entry hentry).utf8Len_eq.le
  rw [List.length_map, smul_eq_mul] at hsum
  exact hsum.trans (Nat.mul_le_mul_right _ hlength)

/-- Every published view has at most as many keys as may be published. -/
theorem length_dhtView_le (h : IsReachable setup sys) :
    sys.relay.dhtView.keys.length ≤ maxPublishedKeys := by
  refine h.invariant (fun sys => sys.relay.dhtView.keys.length ≤ maxPublishedKeys) (Nat.zero_le _) ?_
  intro sys label sys' _ hinv hnext
  rcases next_dhtView hnext with hsame | ⟨now, hbuilt⟩
  · rw [hsame]
    exact hinv
  · rw [hbuilt]
    exact List.length_take_le _ _

/-- In every run that stores only answers whose keys have the documented form, every published key
has it, and the keys of the view have together no more bytes than the relay's constants allow. -/
theorem run_dhtView_bounded {trace : List (System crates × Label crates × System crates)}
    (hrun : Run setup trace sys)
    (hguard : ∀ t ∈ trace, ∀ answer, storedAnswer t.1 t.2.1 = some answer → answer.WellKeyed) :
    (∀ entry ∈ sys.relay.dhtView.keys, IsContentKey entry.contentKey) ∧
      sys.relay.dhtView.keyBytes ≤ maxPublishedKeys * contentKeyLen := by
  have hkeyed : sys.WellKeyed := (hrun.invariant_of_guard
    (fun sys label => ∀ answer, storedAnswer sys label = some answer → answer.WellKeyed)
    System.WellKeyed hguard ⟨List.forall_mem_nil _, List.forall_mem_nil _⟩
    fun _ _ _ _ hanswer hinv hnext => hinv.next hnext hanswer).1
  exact ⟨hkeyed.published, keyBytes_le hkeyed.published (length_dhtView_le ⟨trace, hrun⟩)⟩

/-- A key of the documented form. -/
def sampleKey : String := String.ofList (List.replicate contentKeyLen 'e')

/-- A registered peer answers with one content key. -/
theorem run_dhtView_bounded_one :
    ∃ trace sys, @Run silentCrates standardSetup trace sys ∧
      sys.relay.dhtView.keys = [⟨sampleKey, 1, 1⟩] ∧
      (∀ entry ∈ sys.relay.dhtView.keys, IsContentKey entry.contentKey) ∧
      sys.relay.dhtView.keyBytes ≤ 128000 := by
  obtain ⟨trace, sys, hrun, hends⟩ := @exists_traced_run silentCrates standardSetup
    (Script.connect 0 0 ++ Script.register 0 "p" "net" 0 0 ++
      Script.send 0 (.dhtRecords [⟨sampleKey, 1⟩] 1 false) 1 2 ++ [.dhtBuild 2])
    (fun trace sys => (trace.all fun t => (storedAnswer t.1 t.2.1).all fun answer => answer.WellKeyed) &&
      sys.relay.dhtView.keys = [⟨sampleKey, 1, 1⟩]) (by decide)
  simp only [Bool.and_eq_true, decide_eq_true_eq] at hends
  obtain ⟨hcheck, hkeys⟩ := hends
  refine ⟨trace, sys, hrun, hkeys, run_dhtView_bounded hrun ?_⟩
  intro t ht answer hanswer
  have hall := List.all_eq_true.mp hcheck t ht
  rw [hanswer] at hall
  exact of_decide_eq_true hall

/-- The JSON text of an answer before its only key. -/
def answerOpening : List Char :=
  "\x7b\"type\":\"dht_records\",\"records\":[\x7b\"content_key\":\"".toList

/-- The JSON text of an answer after its only key. -/
def answerClosing : List Char :=
  "\",\"providers\":1\x7d],\"total_keys\":1,\"truncated\":false\x7d".toList

/-- The JSON text of an answer that names one key. -/
def answerText (key : List Char) : List Char := answerOpening ++ key ++ answerClosing

/-- A message is no longer than the limit. -/
def Label.fits (limit : ℕ) : Label crates → Bool
  | .message _ frame _ => frame.len ≤ limit
  | _ => true

/-- What fits a limit fits a higher one. -/
theorem Label.fits_mono {limit higher : ℕ} (h : label.fits limit = true) (hle : limit ≤ higher) :
    label.fits higher = true := by
  cases label
  case message c frame clock => exact decide_eq_true ((of_decide_eq_true h).trans hle)
  all_goals rfl

/-- A relay without per-connection limits that takes messages up to a length. -/
def unlimited (maxMessageBytes : ℕ) : Setup :=
  ⟨{ maxMessageBytes, messagesPerConnPerSec := 0, bytesPerConnPerSec := 0,
      maxRelayedBytesPerConn := 0 }, false⟩

/-- The steps of a relay do not depend on the longest message it takes. -/
theorem step_unlimited (limit : ℕ) :
    @step silentCrates (unlimited limit) = step (unlimited 0) := by
  funext sys label
  cases label <;> rfl

/-- Without limits every frame is admitted. -/
theorem charge_unlimited (limit : ℕ) (conn : Conn crates) (frameLen nowMs : ℕ) :
    (conn.charge (unlimited limit).config frameLen nowMs).1 = .ok := by
  unfold Conn.charge PerConnLimiter.admit
  simp [unlimited]

/-- Without limits every relay message is taken. -/
theorem takeFrame_unlimited {frame : Frame crates} {msg : RelayMessage} (limit : ℕ) (c : ConnId)
    (conn : Conn crates) (clock : Clock) (hpex : isPexFrame frame = false)
    (hrelay : frame.relay = some msg) :
    let taken := conn.takeFrame (unlimited limit).config c frame clock
    taken.phase = .record msg ∧ taken.outbox = conn.outbox ∧ taken.session = conn.session := by
  have hok := charge_unlimited limit conn frame.len clock.ms
  rw [Conn.charge] at hok
  simp [Conn.takeFrame, hok, hpex, hrelay]

section Answer

variable {c : ConnId} {conn : Conn crates} {total : ℕ} {frame : Frame crates} {msg : RelayMessage}
  {records : List DhtRecordEntry} {truncated : Bool}

/-- A registered connection that waits for a frame while no answer is stored. -/
structure Answers (sys : System crates) (c : ConnId) (conn : Conn crates) : Prop where
  task : sys.conns[c]? = some conn
  phase : conn.phase = .idle
  outbox : conn.outbox = []
  peer : conn.session.peerId.isSome = true
  asked : sys.asked = []
  answers : sys.relay.dhtAnswers = []

/-- A received answer waits to be recorded. -/
theorem Answers.message (h : Answers sys c conn) (limit : ℕ) (hpex : isPexFrame frame = false)
    (hrelay : frame.relay = some msg) (clock : Clock) :
    ∃ taken : Conn crates, taken.phase = .record msg ∧ taken.outbox = [] ∧ taken.session = conn.session ∧
      step (unlimited limit) sys (.message c frame clock) = some (sys.move sys.relay c taken) := by
  obtain ⟨hphase, houtbox, hsession⟩ := takeFrame_unlimited limit c conn clock hpex hrelay
  refine ⟨_, hphase, houtbox.trans h.outbox, hsession, ?_⟩
  simp [step, inputStep, h.task, h.phase, h.outbox, System.setConn, System.move]

/-- A recorded answer waits to be stored. -/
theorem Answers.record {taken : Conn crates} (h : Answers sys c conn) (limit : ℕ)
    (hphase : taken.phase = .record msg) (houtbox : taken.outbox = [])
    (hrecords : msg = .dhtRecords records total truncated) (clock : Clock) :
    step (unlimited limit) (sys.move sys.relay c taken) (.exec c clock) =
      some (sys.move sys.relay c { taken with phase := .intercept msg }) := by
  subst hrecords
  rw [step_of_access (move_getElem? h.task _ _) houtbox (by simp only [access, hphase]; rfl), move_move]
  rfl

/-- The answer of a registered connection is stored. -/
theorem Answers.intercept {asking : Conn crates} (h : Answers sys c conn) (limit : ℕ)
    (hphase : asking.phase = .intercept (.dhtRecords records total truncated)) (houtbox : asking.outbox = [])
    (hsession : asking.session = conn.session) (clock : Clock) :
    ∃ last, step (unlimited limit) (sys.move sys.relay c asking) (.exec c clock) =
      some (sys.move { sys.relay with dhtAnswers := [⟨records, truncated⟩] } c last) := by
  refine ⟨asking.intercept c (.dhtRecords records total truncated), ?_⟩
  rw [step_of_access (move_getElem? h.task _ _) houtbox (by simp only [access, hphase]; rfl), move_move]
  simp [System.move, Relay.recordDhtAnswer, hsession, h.peer, h.answers]

/-- What such a connection answers is what is published next. -/
theorem Answers.published {trace : List (System crates × Label crates × System crates)} {limit : ℕ}
    (h : Answers sys c conn) (hrun : Run (unlimited limit) trace sys) (hpex : isPexFrame frame = false)
    (hrelay : frame.relay = some (.dhtRecords records total truncated)) (clock : Clock) (now : ℕ) :
    ∃ more sys', Run (unlimited limit) (trace ++ more) sys' ∧
      (∀ t ∈ more, frame.len ≤ limit → t.2.1.fits limit = true) ∧
      sys'.relay.dhtView = buildDhtView [⟨records, truncated⟩] now := by
  obtain ⟨taken, hphase, houtbox, hsession, hmessage⟩ := h.message limit hpex hrelay clock
  have hrecord := h.record limit hphase houtbox rfl clock
  obtain ⟨last, hintercept⟩ := @Answers.intercept _ _ _ _ _ _ _
    { taken with phase := .intercept (.dhtRecords records total truncated) } h limit rfl houtbox hsession
    clock
  have hbuild : ∃ sys', step (unlimited limit)
      (sys.move { sys.relay with dhtAnswers := [⟨records, truncated⟩] } c last) (.dhtBuild now) =
        some sys' ∧ sys'.relay.dhtView = buildDhtView [⟨records, truncated⟩] now := by
    simp [step, System.move, h.asked]
  obtain ⟨sys', hbuild, hview⟩ := hbuild
  have hlonger : Run (unlimited limit) _ sys' :=
    .snoc (.snoc (.snoc (.snoc hrun (.step hmessage)) (.step hrecord)) (.step hintercept)) (.step hbuild)
  simp only [List.append_assoc] at hlonger
  refine ⟨_, sys', hlonger, ?_, hview⟩
  intro t ht hfits
  simp only [List.mem_append, List.mem_singleton] at ht
  rcases ht with rfl | rfl | rfl | rfl
  · exact decide_eq_true hfits
  all_goals rfl

end Answer

/-- An answer with one key has as many bytes as its key and a hundred more. -/
theorem utf8Len_answerText (key : List Char) : utf8Len (answerText key) = utf8Len key + 100 := by
  have hopening : utf8Len answerOpening = 49 := by decide +kernel
  have hclosing : utf8Len answerClosing = 51 := by decide +kernel
  rw [answerText, utf8Len_append, utf8Len_append, hopening, hclosing, Nat.add_comm 49, Nat.add_assoc]

/-- A relay that takes longer messages publishes longer keys: for every bound there is a valid
configuration in which one answer that is no longer than a message may be is published with more
bytes than the bound. -/
theorem exists_run_keyBytes_gt (bound : ℕ) :
    ∃ setup trace sys, setup.config.validate = .ok () ∧ setup.config.maxMessageBytes = bound + 101 ∧
      @Run silentCrates setup trace sys ∧
      (∀ t ∈ trace, t.2.1.fits setup.config.maxMessageBytes = true) ∧
      bound < sys.relay.dhtView.keyBytes := by
  let key := List.replicate (bound + 1) 'x'
  have hkey : utf8Len key = bound + 1 := by
    rw [utf8Len_of_ascii fun c hc => by rw [List.eq_of_mem_replicate hc]; decide, List.length_replicate]
  obtain ⟨trace, sys, hrun, hends⟩ := @exists_traced_run silentCrates (unlimited (bound + 101))
    (Script.connect 0 0 ++ Script.register 0 "p" "net" 0 0)
    (fun trace sys => (trace.all fun t => t.2.1.fits 101) && sys.asked.isEmpty &&
      sys.relay.dhtAnswers.isEmpty && sys.conns[0]?.any fun conn => conn.phase.isIdle &&
        conn.outbox.isEmpty && conn.session.peerId.isSome) (by rw [step_unlimited]; decide)
  simp only [Bool.and_eq_true, List.isEmpty_iff, Option.any_eq_true, isIdle_iff] at hends
  obtain ⟨⟨⟨hshort, hasked⟩, hanswers⟩, conn, hconn, ⟨hphase, houtbox⟩, hpeer⟩ := hends
  let frame : Frame silentCrates :=
    { len := utf8Len (answerText key)
      typeTag := some "dht_records"
      relay := some (.dhtRecords [⟨String.ofList key, 1⟩] 1 false)
      pex := none }
  have hanswer : Answers sys 0 conn := ⟨hconn, hphase, houtbox, hpeer, hasked, hanswers⟩
  have hpex : isPexFrame frame = false := rfl
  obtain ⟨more, sys', hlonger, hmore, hview⟩ := hanswer.published hrun hpex rfl (atSecond 1) 2
  have hkeys : sys'.relay.dhtView.keys = [⟨String.ofList key, 1, 1⟩] := by
    rw [hview]
    rfl
  refine ⟨unlimited (bound + 101), trace ++ more, sys', rfl, rfl, hlonger, ?_, ?_⟩
  · intro t ht
    rcases List.mem_append.mp ht with hold | hnew
    · exact Label.fits_mono (List.all_eq_true.mp hshort t hold) (Nat.le_add_left 101 bound)
    · apply hmore t hnew
      change utf8Len (answerText key) ≤ bound + 101
      rw [utf8Len_answerText, hkey]
  · simp [DhtView.keyBytes, hkeys, hkey]

/-- In the standard configuration a peer has the key `x` published, and no bound holds for the published
bytes in all configurations. -/
theorem exists_run_key_unbounded :
    (∃ trace sys, @Run silentCrates standardSetup trace sys ∧
      sys.relay.dhtView.keys = [⟨"x", 1, 1⟩] ∧ ¬IsContentKey "x") ∧
    ∀ bound : ℕ, ∃ setup trace sys, setup.config.validate = .ok () ∧
      setup.config.maxMessageBytes = bound + 101 ∧ @Run silentCrates setup trace sys ∧
      (∀ t ∈ trace, t.2.1.fits setup.config.maxMessageBytes = true) ∧
      bound < sys.relay.dhtView.keyBytes := by
  constructor
  · obtain ⟨trace, sys, hrun, hends⟩ := @exists_traced_run silentCrates standardSetup
      (Script.connect 0 0 ++ Script.register 0 "p" "net" 0 0 ++
        Script.send 0 (.dhtRecords [⟨"x", 1⟩] 1 false) 1 2 ++ [.dhtBuild 2])
      (fun _ sys => sys.relay.dhtView.keys = [⟨"x", 1, 1⟩]) (by decide)
    exact ⟨trace, sys, hrun, of_decide_eq_true hends, by decide⟩
  · intro bound
    exact exists_run_keyBytes_gt bound

end DigRelay
