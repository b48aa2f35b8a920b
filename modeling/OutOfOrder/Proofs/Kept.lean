import OutOfOrder.Proofs.Completed
import OutOfOrder.Proofs.Soundness

/-!
# Stations that a cycle leaves alone

Up to execution a cycle touches three kinds of stations: the one that has the
bus is freed, the one that is issued to begins anew, and those that wait for the
value receive it.  All others keep what they have, and also a station that
receives a value keeps everything but its operands and its pause.
-/

namespace OutOfOrder

namespace Station

/-- The other station differs in its operands and its pause at most. -/
def Kept (station other : Station) : Prop :=
  ∃ j k pause, other = { station with j, k, justTransitioned := pause }

variable {station other third : Station}

theorem Kept.refl (station : Station) : station.Kept station :=
  ⟨_, _, _, rfl⟩

theorem Kept.trans (h : station.Kept other) (h' : other.Kept third) :
    station.Kept third := by
  obtain ⟨_, _, _, rfl⟩ := h
  obtain ⟨j, k, pause, rfl⟩ := h'
  exact ⟨j, k, pause, rfl⟩

theorem kept_endPause (station : Station) : station.Kept station.endPause := by
  unfold endPause
  split
  · exact ⟨_, _, _, rfl⟩
  · exact .refl station

theorem kept_listen (station : Station) (tag : String) (value : Int) :
    station.Kept (station.listen tag value) := by
  unfold listen receive
  split
  · split
    · exact ⟨_, _, _, rfl⟩
    · exact .refl station
  · exact .refl station

theorem pauses_listen {tag : String} (h : station.hears tag = true)
    (value : Int) : (station.listen tag value).justTransitioned = true := by
  simp only [hears, Bool.and_eq_true] at h
  rw [listen, if_pos h.1, receive, if_pos h.2]

theorem Kept.asksForBus (h : station.Kept other) :
    other.asksForBus = station.asksForBus := by
  obtain ⟨_, _, _, rfl⟩ := h
  rfl

end Station

namespace Machine

variable {m m' : Machine} {log : List Happening} {name : String}
  {station other : Station}

/-! ## Write-back -/

/-- At write-back a station is left alone, may hear of a value, or has the bus and
is free then. -/
theorem WritesBack.station?_cases (hphase : m.WritesBack m' log)
    (htold : isTold log = true) (hdistinct : m.bank.Distinct)
    (hstation : m.bank.station? name = some station) :
    m'.bank.station? name = some station ∨
      (∃ tag value,
        m'.bank.station? name = some (station.listen tag value)) ∨
      m.bank.granted? = some station ∧
        m'.bank.station? name = some station.release := by
  cases hgranted : m.bank.granted? with
  | none =>
      rw [hphase.eq_self htold hgranted]
      exact .inl hstation
  | some granted =>
      have hreleased : m.released.bank.station? name = some station ∨
          granted = station ∧
            m.released.bank.station? name = some station.release := by
        rw [station?_released hdistinct hgranted]
        split
        · next heq =>
            rw [heq, station?_granted hdistinct hgranted] at hstation
            cases hstation
            exact .inr ⟨rfl, rfl⟩
        · exact .inl hstation
      rcases hphase.bank_eq htold hgranted with hbank | ⟨tag, value, hbank⟩
      · rw [hbank]
        rcases hreleased with hsame | ⟨rfl, hfree⟩
        · exact .inl hsame
        · exact .inr (.inr ⟨rfl, hfree⟩)
      -- a free station hears nothing
      · rw [hbank, Bank.station?_map (Station.name_listen tag value)]
        rcases hreleased with hsame | ⟨rfl, hfree⟩
        · rw [hsame]
          exact .inr (.inl ⟨tag, value, rfl⟩)
        · rw [hfree]
          exact .inr (.inr ⟨rfl, rfl⟩)

/-- A station keeps what it has at write-back, unless it has the bus. -/
theorem WritesBack.kept (hphase : m.WritesBack m' log)
    (htold : isTold log = true) (hdistinct : m.bank.Distinct)
    (hstation : m.bank.station? name = some station)
    (hne : ∀ granted, m.bank.granted? = some granted →
      granted.name ≠ name) :
    ∃ other, m'.bank.station? name = some other ∧ station.Kept other := by
  rcases hphase.station?_cases htold hdistinct hstation with
    hsame | ⟨tag, value, hheard⟩ | ⟨hgranted, -⟩
  · exact ⟨station, hsame, .refl station⟩
  · exact ⟨_, hheard, station.kept_listen tag value⟩
  · exact absurd (Bank.name_of_station? hstation) (hne station hgranted)

/-- Who is at work behind a write-back has kept what it had. -/
theorem WritesBack.kept_of_busy (hphase : m.WritesBack m' log)
    (htold : isTold log = true) (hdistinct : m.bank.Distinct)
    (hother : m'.bank.station? name = some other)
    (hbusy : other.busy = true) :
    ∃ station, m.bank.station? name = some station ∧ station.Kept other := by
  cases hgranted : m.bank.granted? with
  | none =>
      rw [hphase.eq_self htold hgranted] at hother
      exact ⟨other, hother, .refl other⟩
  | some granted =>
      obtain ⟨-, before, hbefore, -, hkept⟩ :=
        hphase.busy_before htold hdistinct hgranted hother hbusy
      refine ⟨before, hbefore, ?_⟩
      rcases hkept with rfl | ⟨tag, value, rfl⟩
      · exact .refl _
      · exact before.kept_listen tag value

theorem WritesBack.pauses_of_received (hphase : m.WritesBack m' log)
    (htold : isTold log = true) (hdistinct : m.bank.Distinct)
    {producer : String} {value : Int}
    (hmem : .received name producer value ∈ log) :
    ∃ other, m'.bank.station? name = some other ∧ other.busy = true ∧
      other.justTransitioned = true := by
  cases hphase with
  | idle => contradiction
  | empty => nomatch htold
  | broken _ _ huntold =>
      rw [huntold] at htold
      nomatch htold
  | stored => simp at hmem
  | @branched station ins =>
      obtain ⟨happening, hlog, hway⟩ := m.redirect_log station ins
      rw [hlog] at hmem
      rcases hway with ⟨_, _, _, _, rfl⟩ | ⟨_, _, rfl⟩ | ⟨_, _, rfl⟩
      · simp at hmem
      · simp at hmem
      · simp at hmem
  | @published station ins sent happening hgranted _ _ hhappening =>
      rcases List.mem_cons.mp hmem with hfirst | hreceived
      · rcases hhappening with rfl | rfl
        · nomatch hfirst
        · nomatch hfirst
      · obtain ⟨_, hhearer, heq⟩ := List.mem_map.mp hreceived
        cases heq
        obtain ⟨hearer, hfilter, rfl⟩ := List.mem_map.mp hhearer
        obtain ⟨hbank, hhears⟩ := List.mem_filter.mp hfilter
        have hfound := (distinct_released hdistinct).station?_name hbank
        have hworks : hearer.busy = true := by
          simp only [Station.hears, Bool.and_eq_true] at hhears
          exact hhears.1
        refine ⟨hearer.listen station.name value, ?_, ?_,
          Station.pauses_listen hhears value⟩
        · have hmap : (m.released.publish station.name ins value).1.bank =
              m.released.bank.map (Station.listen station.name value) := rfl
          rw [hmap, Bank.station?_map (Station.name_listen station.name value),
            hfound]
          rfl
        · obtain ⟨_, _, _, heq⟩ := hearer.kept_listen station.name value
          rw [heq]
          exact hworks

/-! ## Issue -/

theorem Issues.station?_of_busy (hphase : m.Issues m' log)
    (hdistinct : m.bank.Distinct)
    (hstation : m.bank.station? name = some station)
    (hbusy : station.busy = true) :
    m'.bank.station? name = some station := by
  cases hphase with
  | drained => exact hstation
  | stalled => exact hstation
  | @issued next rest free hqueue hfree =>
      rw [station?_occupied hdistinct hfree]
      split
      · next hname =>
          have hfound := station?_free hdistinct hfree
          rw [← hname, hstation] at hfound
          cases hfound
          rw [(mem_of_free? hfree).2.2] at hbusy
          contradiction
      · exact hstation

/-- Who is at work behind an issue was at work before, or begins with a pause. -/
theorem Issues.kept_or_pauses (hphase : m.Issues m' log)
    (hdistinct : m.bank.Distinct)
    (hother : m'.bank.station? name = some other) :
    m.bank.station? name = some other ∨
      other.justTransitioned = true ∧ other.portCycles = 0 := by
  cases hphase with
  | drained => exact .inl hother
  | stalled => exact .inl hother
  | @issued next rest free hqueue hfree =>
      rw [station?_occupied hdistinct hfree] at hother
      split at hother
      · cases hother
        exact .inr ⟨rfl, rfl⟩
      · exact .inl hother

theorem Issues.pauses_of_issued (hphase : m.Issues m' log)
    (hdistinct : m.bank.Distinct) {ins : Instruction}
    (hmem : .issued name ins ∈ log) :
    ∃ other, m'.bank.station? name = some other ∧
      other.justTransitioned = true := by
  cases hphase with
  | drained => contradiction
  | stalled => simp at hmem
  | @issued next rest free hqueue hfree =>
      have hsame : name = free.name ∧ ins = next.instruction := by
        simpa using hmem
      refine ⟨m.occupied free next, ?_, rfl⟩
      rw [station?_occupied hdistinct hfree, if_pos hsame.1]

end Machine

end OutOfOrder
