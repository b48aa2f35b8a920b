import OutOfOrder.Monitor
import OutOfOrder.Proofs.PortSharing
import OutOfOrder.Proofs.Renaming

/-!
# Rules that every completed cycle keeps

The four rules that the monitors watch over hold in every completed cycle of a
machine that a run has reached.  One station at most has the bus, and all others
that ask for it keep asking.  Tags name their producers.  Who is issued to or
receives a value pauses, and who pauses takes no step.  One station at most uses
the port.
-/

namespace OutOfOrder

/-! ## Directories and lists -/

theorem length_le_one_of_nodup {α : Type} {list : List α} {only : α}
    (hnodup : list.Nodup) (h : ∀ entry ∈ list, entry = only) :
    list.length ≤ 1 := by
  rw [List.eq_replicate_of_mem h] at hnodup
  exact List.nodup_replicate.mp hnodup

namespace Directory

variable {κ α : Type} [DecidableEq κ]

def Distinct (directory : Directory κ α) : Prop :=
  (directory.entries.map (·.1)).Nodup

theorem Distinct.put {directory : Directory κ α} (h : directory.Distinct)
    (key : κ) (value : α) : (directory.put key value).Distinct := by
  unfold Distinct Directory.put
  rw [keys_putEntry]
  split
  · exact h
  · next hnew =>
      exact h.append (List.nodup_singleton key)
        (List.disjoint_singleton.mpr hnew)

theorem Distinct.erase {directory : Directory κ α} (h : directory.Distinct)
    (key : κ) : (directory.erase key).Distinct :=
  h.sublist (List.filter_sublist.map _)

theorem Distinct.get?_of_mem {directory : Directory κ α}
    (h : directory.Distinct) {key : κ} {value : α}
    (hmem : (key, value) ∈ directory.entries) :
    directory.get? key = some value := by
  obtain ⟨entries⟩ := directory
  induction entries with
  | nil => contradiction
  | cons entry rest ih =>
      have hnodup := List.nodup_cons.mp h
      rcases List.mem_cons.mp hmem with rfl | hrest
      · simp [get?]
      · have hlater : key ∈ rest.map (·.1) := List.mem_map_of_mem hrest
        have hne : entry.1 ≠ key := fun heq => by
          rw [← heq] at hlater
          exact hnodup.1 hlater
        have hfound := ih hnodup.2 hrest
        simpa [get?, hne] using hfound

theorem putEntry_of_not_mem {key : κ} {value : α} {entries : List (κ × α)}
    (h : key ∉ entries.map (·.1)) :
    putEntry key value entries = entries ++ [(key, value)] := by
  induction entries with
  | nil => rfl
  | cons entry rest ih =>
      simp only [List.map_cons, List.mem_cons, not_or] at h
      rw [putEntry, if_neg (Ne.symm h.1), ih h.2]
      rfl

/-- Pairs with different keys are entered as they come. -/
theorem entries_ofList {pairs : List (κ × α)}
    (h : (pairs.map (·.1)).Nodup) : (ofList pairs).entries = pairs := by
  have hfold : ∀ (pairs : List (κ × α)) (directory : Directory κ α),
      ((directory.entries ++ pairs).map (·.1)).Nodup →
      (pairs.foldl (fun directory pair => directory.put pair.1 pair.2)
        directory).entries = directory.entries ++ pairs := by
    intro pairs
    induction pairs with
    | nil => exact fun directory _ => (List.append_nil _).symm
    | cons entry rest ih =>
        intro directory hnodup
        have hnew : entry.1 ∉ directory.entries.map (·.1) := by
          intro hmem
          rw [List.map_append, List.nodup_append] at hnodup
          exact hnodup.2.2 _ hmem _ (by simp) rfl
        have hput : (directory.put entry.1 entry.2).entries =
            directory.entries ++ [entry] := putEntry_of_not_mem hnew
        rw [List.foldl_cons, ih, hput, List.append_assoc]
        · rfl
        · rw [hput, List.append_assoc]
          exact hnodup
  exact hfold pairs {} h

end Directory

/-- What a happening of the write-back phase can be. -/
def EventKind.isOutcome : EventKind → Bool
  | .writeback | .broadcast => true
  | .branchTaken | .branchNotTaken | .branchOutOfRange => true
  | _ => false

def Happening.signal (happening : Happening) : Signal :=
  ⟨happening.kind, happening.station?⟩

namespace Monitor

variable {stations : Bank}

theorem entries_byName (hdistinct : stations.Distinct) :
    (byName stations).entries =
      stations.map fun station => (station.name, station) := by
  apply Directory.entries_ofList
  rw [List.map_map]
  exact hdistinct

theorem sampled_byName (hdistinct : stations.Distinct) :
    (byName stations).entries.map (·.2) = stations := by
  rw [entries_byName hdistinct, List.map_map]
  exact List.map_id _

theorem get?_byName (hdistinct : stations.Distinct) (name : String) :
    (byName stations).get? name = stations.station? name := by
  rw [Directory.get?, entries_byName hdistinct, List.find?_map, Option.map_map]
  exact Option.map_id'

end Monitor

namespace RegisterFile

theorem distinct_tags_setTag {file : RegisterFile} (h : file.tags.Distinct)
    (name station : String) : (file.setTag name station).tags.Distinct := by
  unfold setTag
  split
  · exact h
  · exact h.put name station

theorem distinct_tags_clearTag {file : RegisterFile} (h : file.tags.Distinct)
    (name station : String) : (file.clearTag name station).tags.Distinct := by
  unfold clearTag
  split
  · exact h.erase name
  · exact h

end RegisterFile

namespace Machine

variable {m m' : Machine} {ledger : Ledger} {log : List Happening}

/-! ## Orderly machines -/

/-- No register is tagged twice, and the port belongs to the station that uses
it. -/
structure Orderly (m : Machine) : Prop where
  tags : m.registers.tags.Distinct
  port : m.PortHeld

theorem orderly_create (config : Config) (preload : List (Int × Int)) :
    (create config preload).Orderly :=
  ⟨List.nodup_nil, portHeld_create config preload⟩

theorem Orderly.of_bank_eq (h : m.Orderly) (hbank : m'.bank = m.bank)
    (howner : m'.portOwner = m.portOwner)
    (htags : m'.registers.tags = m.registers.tags) : m'.Orderly :=
  ⟨htags ▸ h.tags, h.port.of_bank_eq hbank howner⟩

theorem distinct_tags_publish (h : m.registers.tags.Distinct) (tag : String)
    (ins : Instruction) (value : Int) :
    (m.publish tag ins value).1.registers.tags.Distinct := by
  unfold Machine.publish
  dsimp only
  split
  · exact RegisterFile.distinct_tags_clearTag
      ((RegisterFile.tags_write _ _ _).symm ▸ h) _ tag
  · exact h

theorem Orderly.writesBack (h : m.Orderly) (hphase : m.WritesBack m' log) :
    m'.Orderly := by
  refine ⟨?_, h.port.writesBack hphase⟩
  cases hphase with
  | idle | empty | stored => exact h.tags
  | @broken station ins =>
      obtain ⟨cache, queue, issuedCount, heq⟩ := settle_eq m station ins
      rw [heq]
      exact h.tags
  | @branched station ins =>
      obtain ⟨queue, issuedCount, heq⟩ := redirect_eq m station ins
      rw [heq]
      exact h.tags
  | published => exact distinct_tags_publish h.tags _ _ _

theorem Orderly.issues (h : m.Orderly) (hphase : m.Issues m' log) :
    m'.Orderly := by
  refine ⟨?_, h.port.issues hphase⟩
  cases hphase with
  | drained | stalled => exact h.tags
  | @issued next rest station =>
      dsimp only
      split
      · exact RegisterFile.distinct_tags_setTag h.tags _ station.name
      · exact h.tags

theorem Orderly.advance (h : m.Orderly) : m.advance.1.Orderly :=
  advance_keeps (P := Orderly) (fun _ h => ⟨h.tags, h.port.begin⟩)
    (fun _ _ _ hphase h => h.writesBack hphase)
    (fun _ _ _ hphase h => h.issues hphase)
    (fun _ h => ⟨h.tags, h.port.execute⟩) h

/-! ## Tags -/

theorem checkTags_eq_none (h : m.Agrees ledger) (horderly : m.Orderly) :
    Monitor.checkTags m = none := by
  unfold Monitor.checkTags
  rw [h.tags_zeroRegister]
  apply List.findSome?_eq_none_iff.mpr
  rintro ⟨register, tag⟩ hmem
  have htag := horderly.tags.get?_of_mem hmem
  obtain ⟨-, number, hdefiner, hseat⟩ := (h.tags register tag).mp htag
  obtain ⟨station, ins, hstation, hbusy, hins, hissue⟩ := h.occupied hseat
  have htarget := (Ledger.definerBefore?_eq_some hdefiner).2
  rw [h.target?_eq hstation hseat hins] at htarget
  have hworks : (m.bank.station? tag).filter (·.busy) = some station := by
    rw [hstation]
    simp [Option.filter, hbusy]
  simp only [Monitor.checkTag, hworks, hins, htarget, if_true]

/-! ## The bus -/

theorem Completes.writebackCount_le_one (h : m.Completes m' log) :
    writebackCount log ≤ 1 := by
  obtain ⟨hwrites, htold, hissues, -⟩ := h
  rename_i m₁ m₂ written issued
  have hsplit : Happening.cycleStarted :: written ++ issued ++ m₂.execute.2 =
      [.cycleStarted] ++ written ++ issued ++ m₂.execute.2 := rfl
  have hstarted : writebackCount [.cycleStarted] = 0 := rfl
  rw [hsplit, writebackCount_append, writebackCount_append,
    writebackCount_append, hstarted, hwrites.writebackCount_eq htold,
    hissues.writebackCount_eq, writebackCount_execute]
  split <;> omega

theorem Completes.map_place_eq (h : m.Completes m' log) :
    m'.bank.map place = m.bank.map place := by
  obtain ⟨hwrites, htold, hissues, -⟩ := h
  rw [map_place_execute, map_place_issues hissues,
    map_place_writesBack hwrites, map_place_begin]

/-- A station that asks for the bus and does not have it goes on asking, for the
same instruction. -/
theorem Completes.kept_of_asksForBus (h : m.Completes m' log)
    (hsound : m.Sound) {name : String} {station : Station}
    (hstation : m.bank.station? name = some station)
    (hasks : station.asksForBus = true)
    (hne : ∀ granted, m.begin.bank.granted? = some granted →
      granted.name ≠ name) :
    ∃ other, m'.bank.station? name = some other ∧ station.Kept other := by
  obtain ⟨hwrites, htold, hissues, -⟩ := h
  have hbegun := hsound.begin
  have hbegan : m.begin.bank.station? name = some station.endPause := by
    rw [station?_begin, hstation]
    rfl
  obtain ⟨written, hwritten, hkept⟩ :=
    hwrites.kept htold hbegun.distinct hbegan hne
  have hkept := station.kept_endPause.trans hkept
  have hwritten_asks := hkept.asksForBus.trans hasks
  simp only [Station.asksForBus, Bool.and_eq_true] at hwritten_asks
  have hissued := hissues.station?_of_busy
    (hbegun.writesBack hwrites).distinct hwritten hwritten_asks.1
  obtain ⟨other, hother, hstep⟩ := exists_stepped_execute hissued
  refine ⟨other, hother, ?_⟩
  rcases hstep with rfl | ⟨port, cache, rfl⟩
  · exact hkept
  · have hrests : written.rests = true := by
      simp [Station.rests, hwritten_asks.2]
    rw [Station.execute, if_pos hrests]
    exact hkept

theorem Completes.checkLeft_eq_none (h : m.Completes m' log)
    (hsound : m.Sound) :
    Monitor.checkLeft (m.bank.filter (·.asksForBus)) m' = none := by
  have hnames : m'.bank.map Station.name = m.bank.map Station.name := by
    have hplaces := congrArg (List.map Prod.fst) h.map_place_eq
    simpa [place, Function.comp_def] using hplaces
  have hlost : (m.bank.filter (·.asksForBus)).find? (fun station =>
      (m'.bank.station? station.name).isNone) = none := by
    rw [List.find?_eq_none]
    intro station hmem hnone
    have hsome := Bank.isSome_station?_of_map_name_eq hnames station.name
    rw [hsound.distinct.station?_name (List.mem_filter.mp hmem).1] at hsome
    rw [Option.isNone_iff_eq_none] at hnone
    rw [hnone] at hsome
    contradiction
  -- without the bus a station that asked for it still has its result pending
  have honly : ∀ name ∈ ((m.bank.filter (·.asksForBus)).filter
      (Monitor.hasLeft m')).map (·.name),
      name = (m.begin.bank.granted?.map (·.name)).getD "" := by
    intro name hmem
    obtain ⟨station, hfilter, rfl⟩ := List.mem_map.mp hmem
    obtain ⟨hsampled, hleft⟩ := List.mem_filter.mp hfilter
    obtain ⟨hbank, hasks⟩ := List.mem_filter.mp hsampled
    by_contra hne
    obtain ⟨other, hother, hkept⟩ := h.kept_of_asksForBus hsound
      (hsound.distinct.station?_name hbank) hasks fun granted hgranted => by
        rw [hgranted] at hne
        exact Ne.symm hne
    have hpending : station.resultPending = true := by
      simp only [Station.asksForBus, Bool.and_eq_true] at hasks
      exact hasks.2
    obtain ⟨_, _, _, rfl⟩ := hkept
    simp [Monitor.hasLeft, hother, hpending] at hleft
  have hfew := length_le_one_of_nodup
    ((hsound.distinct.filter _).filter _) honly
  unfold Monitor.checkLeft
  rw [hlost]
  exact if_neg (Nat.not_lt.mpr hfew)

theorem Completes.checkBus_eq_none (h : m.Completes m' log)
    (hsound : m.Sound) :
    Monitor.checkBus (Monitor.byName (m.bank.filter (·.asksForBus))) m'
      (log.map Happening.signal) = none := by
  have hcount : (((log.map Happening.signal).filter
      (·.kind = .writeback)).map (·.station)).length = writebackCount log := by
    rw [List.length_map, ← List.countP_eq_length_filter, List.countP_map]
    rfl
  have hfew := h.writebackCount_le_one
  unfold Monitor.checkBus
  dsimp only
  rw [if_neg (by omega),
    Monitor.sampled_byName (hsound.distinct.filter (·.asksForBus))]
  exact h.checkLeft_eq_none hsound

/-! ## Pauses -/

theorem WritesBack.isOutcome_of_mem (hphase : m.WritesBack m' log)
    (htold : isTold log = true) {happening : Happening}
    (hmem : happening ∈ log) : happening.kind.isOutcome = true := by
  cases hphase with
  | idle => contradiction
  | empty => nomatch htold
  | broken _ _ huntold =>
      rw [huntold] at htold
      nomatch htold
  | stored =>
      rw [List.mem_singleton.mp hmem]
      rfl
  | @branched station ins =>
      obtain ⟨way, hlog, hway⟩ := m.redirect_log station ins
      rw [hlog] at hmem
      rcases List.mem_cons.mp hmem with rfl | hmem
      · rfl
      · rw [List.mem_singleton.mp hmem]
        rcases hway with ⟨_, _, _, _, rfl⟩ | ⟨_, _, rfl⟩ | ⟨_, _, rfl⟩
        all_goals rfl
  | published _ _ _ hhappening =>
      rcases List.mem_cons.mp hmem with rfl | hreceived
      · rcases hhappening with rfl | rfl
        all_goals rfl
      · obtain ⟨name, -, rfl⟩ := List.mem_map.mp hreceived
        rfl

theorem Issues.eq_of_mem (hphase : m.Issues m' log) {happening : Happening}
    (hmem : happening ∈ log) :
    (∃ ins, happening = .stalled ins) ∨
      ∃ name ins, happening = .issued name ins := by
  cases hphase with
  | drained => contradiction
  | stalled => exact .inl ⟨_, List.mem_singleton.mp hmem⟩
  | issued => exact .inr ⟨_, _, List.mem_singleton.mp hmem⟩

/-- Who is issued to, or receives a value, pauses in the rest of the cycle. -/
theorem WritesBack.rests_of_paused {m₁ m₂ : Machine}
    {written issued : List Happening} (hwrites : m.WritesBack m₁ written)
    (htold : isTold written = true) (hissues : m₁.Issues m₂ issued)
    (hsound : m.Sound) {happening : Happening} {name : String}
    (hmem : happening ∈ .cycleStarted :: written ++ issued ++ m₂.execute.2)
    (hkind : happening.kind = .issue ∨ happening.kind = .broadcast)
    (hname : happening.station? = some name) :
    ∃ station, m₂.bank.station? name = some station ∧
      station.rests = true := by
  have hdistinct := (hsound.writesBack hwrites).distinct
  have hpauses : ∀ {station : Station}, station.justTransitioned = true →
      station.rests = true := by
    intro station hpause
    simp [Station.rests, hpause]
  rcases mem_completes hmem with rfl | hwritten | hissued | hexecuted
  · contradiction
  · have houtcome := hwrites.isOutcome_of_mem htold hwritten
    rcases hkind with hissue | hreceive
    · rw [hissue] at houtcome
      contradiction
    · cases happening with
      | received station producer value =>
          cases hname
          obtain ⟨other, hother, hbusy, hpause⟩ :=
            hwrites.pauses_of_received htold hsound.distinct hwritten
          exact ⟨other, hissues.station?_of_busy hdistinct hother hbusy,
            hpauses hpause⟩
      | _ => contradiction
  · rcases hissues.eq_of_mem hissued with ⟨ins, rfl⟩ | ⟨station, ins, rfl⟩
    · contradiction
    · cases hname
      obtain ⟨other, hother, hpause⟩ :=
        hissues.pauses_of_issued hdistinct hissued
      exact ⟨other, hother, hpauses hpause⟩
  · have hexecution := isExecution_of_mem_execute hexecuted
    rcases hkind with hkind | hkind
    · rw [hkind] at hexecution
      contradiction
    · rw [hkind] at hexecution
      contradiction

/-- Who starts in a cycle does not pause in it. -/
theorem WritesBack.awake_of_started {m₁ m₂ : Machine}
    {written issued : List Happening} (hwrites : m.WritesBack m₁ written)
    (htold : isTold written = true) (hissues : m₁.Issues m₂ issued)
    (hsound : m.Sound) {happening : Happening}
    (hmem : happening ∈ .cycleStarted :: written ++ issued ++ m₂.execute.2)
    (hkind : happening.kind = .execStart) :
    ∃ name station, happening.station? = some name ∧
      m₂.bank.station? name = some station ∧ station.rests = false := by
  have hdistinct := ((hsound.writesBack hwrites).issues hissues).distinct
  rcases mem_completes hmem with rfl | hwritten | hissued | hexecuted
  · nomatch hkind
  · have houtcome := hwrites.isOutcome_of_mem htold hwritten
    rw [hkind] at houtcome
    nomatch houtcome
  · rcases hissues.eq_of_mem hissued with ⟨ins, rfl⟩ | ⟨station, ins, rfl⟩
    · nomatch hkind
    · nomatch hkind
  · obtain ⟨station, hstation, hstep, hawake⟩ :=
      Bank.isStepOf_of_mem_execute hexecuted
    exact ⟨station.name, station, hstep.2, hdistinct.station?_name hstation,
      hawake⟩

theorem Completes.checkPauses_eq_none (h : m.Completes m' log)
    (hsound : m.Sound) :
    Monitor.checkPauses (log.map Happening.signal) = none := by
  obtain ⟨hwrites, htold, hissues, -⟩ := h
  have hbegun := hsound.begin
  unfold Monitor.checkPauses
  dsimp only
  rw [Option.map_eq_none_iff, List.find?_eq_none]
  intro signal hstarted hpaused
  obtain ⟨hmem, hkind⟩ := List.mem_filter.mp hstarted
  obtain ⟨start, hstart, rfl⟩ := List.mem_map.mp hmem
  obtain ⟨other, hother, hsame⟩ := List.any_eq_true.mp hpaused
  obtain ⟨hmem', hkind'⟩ := List.mem_filter.mp hother
  obtain ⟨pause, hpause, rfl⟩ := List.mem_map.mp hmem'
  obtain ⟨name, station, hname, hstation, hawake⟩ :=
    hwrites.awake_of_started htold hissues hbegun hstart
      (of_decide_eq_true hkind)
  have hpauses : pause.kind = .issue ∨ pause.kind = .broadcast :=
    (Bool.or_eq_true_iff.mp hkind').imp of_decide_eq_true of_decide_eq_true
  have hpauseName : pause.station? = some name :=
    (of_decide_eq_true hsame).trans hname
  obtain ⟨station', hstation', hrests⟩ :=
    hwrites.rests_of_paused htold hissues hbegun hpause hpauses hpauseName
  rw [hstation] at hstation'
  cases hstation'
  rw [hawake] at hrests
  nomatch hrests

/-! ## The port -/

/-- The stations whose use of the port is watched. -/
def accessing (m : Machine) : Bank :=
  (m.bank.ofPool .loadStore).filter (·.busy)

theorem distinct_accessing (hdistinct : m.bank.Distinct) :
    m.accessing.Distinct :=
  (hdistinct.filter _).filter _

/-- Before execution a station shows the same use of the port as in the sample,
or was issued to since then and shows none. -/
theorem WritesBack.usedPort_eq_false {m₁ m₂ : Machine}
    {written issued : List Happening} (hwrites : m.begin.WritesBack m₁ written)
    (htold : isTold written = true) (hissues : m₁.Issues m₂ issued)
    (hsound : m.Sound) (horderly : m.Orderly) {name : String}
    {station : Station} (hstation : m₂.bank.station? name = some station)
    (hpool : station.pool = .loadStore) (hbusy : station.busy = true) :
    Monitor.usedPort (Monitor.byName m.accessing) station = false := by
  have hbegun := hsound.begin
  have hsampled := Monitor.get?_byName (distinct_accessing hsound.distinct)
  cases Bank.name_of_station? hstation
  rcases hissues.kept_or_pauses (hbegun.writesBack hwrites).distinct hstation
    with hbefore | ⟨-, hnone⟩
  · obtain ⟨begun, hbegan, hkept⟩ :=
      hwrites.kept_of_busy htold hbegun.distinct hbefore hbusy
    rw [station?_begin] at hbegan
    obtain ⟨first, hfirst, rfl⟩ := Option.map_eq_some_iff.mp hbegan
    obtain ⟨_, _, _, rfl⟩ := first.kept_endPause.trans hkept
    have hmem : first ∈ m.accessing := by
      simp only [accessing, Bank.ofPool, List.mem_filter, decide_eq_true_eq]
      exact ⟨⟨Bank.mem_of_station? hfirst, hpool⟩, hbusy⟩
    have hfound := (distinct_accessing hsound.distinct).station?_name hmem
    simp [Monitor.usedPort, hsampled, hfound]
  -- who was issued to since then shows nothing above what it showed before
  · have hnonneg : ∀ sampled, m.accessing.station? station.name =
        some sampled → 0 ≤ sampled.portCycles := by
      intro sampled hfound
      have hmem := Bank.mem_of_station? hfound
      simp only [accessing, Bank.ofPool, List.mem_filter] at hmem
      exact (horderly.port.of_mem hmem.1.1).2.nonneg
    rw [Monitor.usedPort, hsampled, hnone, decide_eq_false_iff_not, Int.not_lt]
    split
    · next sampled hfound =>
        split
        · exact hnonneg sampled hfound
        · exact Int.le_refl 0
    · exact Int.le_refl 0

theorem Completes.checkPort_eq_none (h : m.Completes m' log)
    (hsound : m.Sound) (horderly : m.Orderly) :
    Monitor.checkPort (Monitor.byName m.accessing) m' = none := by
  obtain ⟨hwrites, htold, hissues, -⟩ := h
  rename_i m₁ m₂ written issued
  have hheld := (horderly.port.begin.writesBack hwrites).issues hissues
  have hissued := hheld.sound
  obtain ⟨user, huse, -⟩ := @Bank.exists_givesPortTo m₂.bank
    ⟨m₂.portOwner, false⟩ m₂.cache hissued.distinct
    fun _ hmem => hheld.of_mem hmem
  -- the sample was taken before write-back, so what the first two phases do to
  -- a station must not look like a use of the port
  have honly : ∀ name ∈ ((m₂.execute.1.bank.ofPool .loadStore).filter
      fun station => station.busy &&
        Monitor.usedPort (Monitor.byName m.accessing) station).map (·.name),
      name = user.getD "" := by
    intro name hmem
    obtain ⟨station, hfilter, rfl⟩ := List.mem_map.mp hmem
    obtain ⟨hpooled, hused⟩ := List.mem_filter.mp hfilter
    obtain ⟨hbank, hpool⟩ := List.mem_filter.mp hpooled
    obtain ⟨hbusy, hused⟩ := Bool.and_eq_true_iff.mp hused
    obtain ⟨before, hbefore, hname, ⟨huser, -⟩ | ⟨-, hcycles⟩⟩ :=
      Bank.exists_mem_of_forall₂ huse hbank
    · rw [huser, hname]
      rfl
    · have hafter := hissued.execute.distinct.station?_name hbank
      obtain ⟨other, hother, hstep⟩ := exists_stepped_of_execute hafter
      rw [hname, hissued.distinct.station?_name hbefore] at hother
      cases hother
      have hwork := hstep.sameWork
      have hidle := hwrites.usedPort_eq_false htold hissues hsound horderly
        (hissued.distinct.station?_name hbefore)
        (hwork.pool.symm.trans (of_decide_eq_true hpool))
        (hwork.busy.symm.trans hbusy)
      rw [Monitor.usedPort, hname, hwork.held, hcycles] at hused
      rw [Monitor.usedPort, hused] at hidle
      nomatch hidle
  have hfew := length_le_one_of_nodup
    (((hissued.execute.distinct.filter _).filter _)) honly
  exact if_neg (Nat.not_lt.mpr hfew)

/-! ## Every rule -/

/-- The machine agrees with what has happened to it, and is orderly. -/
structure Watchable (m : Machine) : Prop where
  agrees : ∃ ledger, m.Agrees ledger
  orderly : m.Orderly

theorem Watchable.of_bank_eq (h : m.Watchable) (hbank : m'.bank = m.bank)
    (howner : m'.portOwner = m.portOwner)
    (htags : m'.registers.tags = m.registers.tags) : m'.Watchable where
  agrees := h.agrees.imp fun _ hagrees => hagrees.of_bank_eq hbank htags
  orderly := h.orderly.of_bank_eq hbank howner htags

theorem Watchable.advance (h : m.Watchable) : m.advance.1.Watchable where
  agrees := by
    obtain ⟨ledger, hagrees⟩ := h.agrees
    exact ⟨ledger.afterCycle m, hagrees.advance⟩
  orderly := h.orderly.advance

theorem Completes.check_eq_none (h : m.Completes m' log) (hm : m.Watchable)
    (hm' : m'.Watchable) (rule : Rule) (monitor : Monitor) :
    (monitor.beforeCycle rule m).check rule m' (log.map Happening.signal) =
      none := by
  obtain ⟨_, hagrees⟩ := hm.agrees
  obtain ⟨_, hagrees'⟩ := hm'.agrees
  cases rule with
  | bus => exact h.checkBus_eq_none hagrees.sound
  | tags => exact checkTags_eq_none hagrees' hm'.orderly
  | pause => exact h.checkPauses_eq_none hagrees.sound
  | port => exact h.checkPort_eq_none hagrees.sound hm.orderly

end Machine

end OutOfOrder
