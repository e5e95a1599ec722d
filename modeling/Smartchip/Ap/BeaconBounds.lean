import Smartchip.Ap.BeaconElements
import Smartchip.Foundation.Run

/-!
# The bounds of a beacon configuration

What a buffer has to be like for `wf_ap_set_beacon` to read nothing outside of it, to write
nothing but its fields, and to keep the elements as they are.
-/

namespace Smartchip.Ap

open Smartchip.Foundation Smartchip.Frame

namespace SetBeacon

/-! ## What is to hold -/

/-- The part of the buffer with the elements. -/
def elementPart (buf : Mem) (len : UInt32) : List UInt8 :=
  buf.read fixedFields (len.toNat - fixedFields)

/-- Beside a connected station its channel goes to the first DS element. -/
def adjusted (buddy : Option BuddyNic) (elements : List UInt8) : List UInt8 :=
  match stationChannel buddy with
  | none => elements
  | some channel => resetBeaconChannel channel elements

/-- No access is outside, the buffer is not written, an error changes nothing, and otherwise the
template has the elements. -/
def Configures (side : Side) (buf : Mem) (len : UInt32) (net : Network) : Prop :=
  ∃ ret after, wfApSetBeacon side buf len net = some (ret, after) ∧ after.written = [] ∧
    (ret ≠ 0 → after.net = net) ∧
    (ret = 0 → after.net.template = adjusted side.buddy (elementPart buf len))

/-! ## When it does -/

section Places

variable (side : Side) (buf : Mem)

/-- From one element to the next. -/
inductive Turn (varLen : Nat) : Nat × Past → Nat × Past → Prop where
  | element {ofs : Nat} {past : Past} (more : ofs < varLen) :
      Turn varLen (ofs, past)
        (ofs + (2 + ieSize buf (fixedFields + ofs)), past.behind side buf (fixedFields + ofs))

def PlaceFits (len varLen : Nat) (place : Nat × Past) : Prop :=
  place.1 < varLen → ElementFits side buf len (fixedFields + place.1) place.2

end Places

/-- The elements go into the template, and each one that is reached fits. -/
structure BufferFits (side : Side) (buf : Mem) (len : UInt32) : Prop where
  short : len.toNat ≤ fixedFields + iesSizeMax
  places : ∀ place,
    Relation.ReflTransGen (Turn side buf (len.toNat - fixedFields)) (0, ⟨0, false⟩) place →
      PlaceFits side buf len.toNat (len.toNat - fixedFields) place

/-! ## The channel of the template -/

section Lists

variable {channel e : UInt8}

theorem reset_ds (rest : List UInt8) :
    resetBeaconChannel channel (eidDs :: rest) = (eidDs :: rest).set 2 channel := by
  cases rest with
  | nil => simp [resetBeaconChannel]
  | cons len rest => simp [resetBeaconChannel]

theorem drop_of_getElem? {bytes : List UInt8} {i : Nat} (byte : bytes[i]? = some e) :
    bytes.drop i = e :: bytes.drop (i + 1) := by
  obtain ⟨inside, same⟩ := List.getElem?_eq_some_iff.mp byte
  rw [List.drop_eq_getElem_cons inside, same]

theorem reset_short (e : UInt8) : resetBeaconChannel channel [e] = [e] := by
  simp [resetBeaconChannel]

theorem reset_other (other : e ≠ eidDs) (len : UInt8) (rest : List UInt8) :
    resetBeaconChannel channel (e :: len :: rest) =
      (e :: len :: rest).take (2 + len.toNat) ++
        resetBeaconChannel channel ((e :: len :: rest).drop (2 + len.toNat)) := by
  rw [resetBeaconChannel, if_neg other, Nat.add_comm 2]
  simp

end Lists

section Reset

variable {channel : UInt8} {ies after : Vector UInt8 iesSizeMax} {n fuel : Nat} {ofs : UInt16}

theorem next_toNat (small : ofs.toNat < iesSizeMax) (byte : UInt8) :
    (ofs + (2 + byte.toUInt16)).toNat = ofs.toNat + (2 + byte.toNat) := by
  have short := byte.toNat_lt
  have two : (2 : UInt16).toNat = 2 := rfl
  unfold iesSizeMax at small
  rw [UInt16.toNat_add, UInt16.toNat_add, UInt8.toNat_toUInt16, two]
  omega

/-- What is before the data of the element that is looked at stays. -/
theorem resetLoop_before (small : n ≤ iesSizeMax)
    (done : resetLoop channel ies n fuel ofs = some after) {i : Nat}
    (before : i < ofs.toNat + 2) : after[i]? = ies[i]? := by
  induction fuel generalizing ofs with
  | zero => cases done
  | succ fuel ih =>
      rw [resetLoop] at done
      split_ifs at done with more
      · obtain ⟨elementId, here, done⟩ := Option.bind_eq_some_iff.mp done
        split_ifs at done with ds
        · have fits : (store ies (ofs.toNat + 2) [channel]).isSome := by simp [done]
          rw [store_isSome, List.length_singleton] at fits
          rw [← Vector.getElem?_toList, toList_store done, ← Vector.getElem?_toList,
            List.append_assoc, List.getElem?_append_left (by simp; omega),
            List.getElem?_take_of_lt before]
        · obtain ⟨size, -, rest⟩ := Option.bind_eq_some_iff.mp done
          have next := @next_toNat ofs (by omega) size
          exact ih rest (by omega)
      · cases done
        rfl

/-- The loop finds the same element again. -/
theorem resetLoop_again (small : n ≤ iesSizeMax)
    (done : resetLoop channel ies n fuel ofs = some after) :
    resetLoop channel after n fuel ofs = some after := by
  induction fuel generalizing ofs with
  | zero => cases done
  | succ fuel ih =>
      have before := fun i => @resetLoop_before channel ies after n (fuel + 1) ofs small done i
      rw [resetLoop] at done ⊢
      split_ifs at done ⊢ with more
      · obtain ⟨elementId, here, done⟩ := Option.bind_eq_some_iff.mp done
        rw [before _ (by omega), here, before _ (by omega)]
        simp only [Option.bind_eq_bind, Option.bind_some]
        split_ifs at done ⊢ with ds
        · exact store_stored done
        · obtain ⟨size, length, rest⟩ := Option.bind_eq_some_iff.mp done
          rw [length]
          exact ih rest
      · rfl

/-- In the part that is in use the loop does what is done to a list of elements. -/
theorem resetLoop_take (small : n ≤ iesSizeMax)
    (done : resetLoop channel ies n fuel ofs = some after) :
    after.toList.take n = (ies.toList.take n).take ofs.toNat ++
      resetBeaconChannel channel ((ies.toList.take n).drop ofs.toNat) := by
  induction fuel generalizing ofs with
  | zero => cases done
  | succ fuel ih =>
      rw [resetLoop] at done
      split_ifs at done with more
      · obtain ⟨elementId, here, done⟩ := Option.bind_eq_some_iff.mp done
        have first : (ies.toList.take n)[ofs.toNat]? = some elementId := by
          rw [List.getElem?_take_of_lt more, Vector.getElem?_toList, here]
        split_ifs at done with ds
        · rw [toList_store_one done, List.take_set, drop_of_getElem? first, ds, reset_ds, ← ds,
            ← drop_of_getElem? first, List.set_drop,
            ← List.take_set_of_le (Nat.le_add_right ofs.toNat 2), List.take_append_drop]
        · obtain ⟨size, length, rest⟩ := Option.bind_eq_some_iff.mp done
          have next := @next_toNat ofs (by omega) size
          have behind : resetBeaconChannel channel ((ies.toList.take n).drop ofs.toNat) =
              ((ies.toList.take n).drop ofs.toNat).take (2 + size.toNat) ++
                resetBeaconChannel channel
                  (((ies.toList.take n).drop ofs.toNat).drop (2 + size.toNat)) := by
            rw [drop_of_getElem? first]
            cases header : (ies.toList.take n).drop (ofs.toNat + 1) with
            | nil =>
                rw [reset_short, List.take_of_length_le (by simp; omega),
                  List.drop_eq_nil_of_le (by simp; omega)]
                simp [resetBeaconChannel]
            | cons len data =>
                have byte := congrArg List.head? header
                rw [List.head?_drop, List.head?_cons] at byte
                have inside : ofs.toNat + 1 < n := by
                  have short := (List.getElem?_eq_some_iff.mp byte).1
                  rw [List.length_take] at short
                  omega
                rw [List.getElem?_take_of_lt inside, Vector.getElem?_toList, length,
                  Option.some.injEq] at byte
                rw [reset_other ds, byte]
          rw [ih rest, next, List.take_add, behind, List.drop_drop, List.append_assoc]
      · cases done
        have whole : (ies.toList.take n).length ≤ ofs.toNat := by
          simp
          omega
        rw [List.take_of_length_le whole, List.drop_eq_nil_of_le whole]
        simp [resetBeaconChannel]

end Reset

/-! ## One round -/

/-- What holds in front of an element. -/
structure Holds (side : Side) (buf : Mem) (n : Nat) (ofs : UInt16) (past : Past) (s : State) :
    Prop where
  unwritten : s.buf = buf
  written : s.written = []
  rates : s.net.rate.len = past.rates
  iesLength : s.net.iesLength = n
  copied : past.ds = false ∨ stationChannel side.buddy = none →
    s.net.ies.toList.take n = buf.read fixedFields n
  clear : past.ds = false → ∀ channel, ∃ fuel, n - ofs.toNat < fuel ∧
    wfApResetBeaconChannel channel s.net.ies n = resetLoop channel s.net.ies n fuel ofs
  reset : past.ds = true → ∀ channel ∈ stationChannel side.buddy,
    s.net.ies.toList.take n = resetBeaconChannel channel (buf.read fixedFields n) ∧
      wfApResetBeaconChannel channel s.net.ies n = some s.net.ies

section Round

variable {side : Side} {buf : Mem} {len n : Nat} {ofs : UInt16} {past : Past} {s after : State}

theorem Holds.byte (holds : Holds side buf n ofs past s)
    (copied : past.ds = false ∨ stationChannel side.buddy = none) {i : Nat} (inside : i < n) :
    s.net.ies[i]? = some (buf (fixedFields + i)) := by
  have bytes := congrArg (fun bytes : List UInt8 => bytes[i]?) (holds.copied copied)
  rw [List.getElem?_take_of_lt inside, Vector.getElem?_toList,
    Mem.getElem?_read _ _ inside] at bytes
  exact bytes

/-- The loop for the channel goes on behind an element that is not one of DS. -/
theorem Holds.pass (holds : Holds side buf n ofs past s) (small : n ≤ iesSizeMax)
    (header : ofs.toNat + 2 ≤ n) (other : buf (fixedFields + ofs.toNat) ≠ eidDs)
    (none : past.ds = false) (channel : UInt8) :
    ∃ fuel, n - (ofs + (2 + (buf (fixedFields + ofs.toNat + 1)).toUInt16)).toNat < fuel ∧
      wfApResetBeaconChannel channel s.net.ies n =
        resetLoop channel s.net.ies n fuel
          (ofs + (2 + (buf (fixedFields + ofs.toNat + 1)).toUInt16)) := by
  obtain ⟨fuel, enough, same⟩ := holds.clear none channel
  obtain _ | fuel := fuel
  · omega
  have id := @Holds.byte side buf n ofs past s holds (Or.inl none) ofs.toNat (by omega)
  have length := @Holds.byte side buf n ofs past s holds (Or.inl none) (ofs.toNat + 1) (by omega)
  have next := @next_toNat ofs (by omega) (buf (fixedFields + ofs.toNat + 1))
  refine ⟨fuel, by omega, ?_⟩
  rw [same, resetLoop, if_pos (by omega), id, length]
  simp [other, Nat.add_assoc]

/-- What the elements other than rates and DS do. -/
theorem Holds.kept (holds : Holds side buf n ofs past s) (small : n ≤ iesSizeMax)
    (header : ofs.toNat + 2 ≤ n) (other : buf (fixedFields + ofs.toNat) ≠ eidDs)
    (rates : ¬ isRates buf (fixedFields + ofs.toNat)) (kept : Kept s after)
    (clean : after.written = []) :
    Holds side buf n (ofs + (2 + (buf (fixedFields + ofs.toNat + 1)).toUInt16))
      (past.behind side buf (fixedFields + ofs.toNat)) after := by
  have same : past.behind side buf (fixedFields + ofs.toNat) = past := by
    simp [Past.behind, rates, other]
  rw [same]
  constructor
  · rw [kept.buf, holds.unwritten]
  · exact clean
  · rw [kept.rate, holds.rates]
  · rw [kept.iesLength, holds.iesLength]
  · rw [kept.ies]
    exact holds.copied
  · rw [kept.ies]
    exact fun none => holds.pass small header other none
  · rw [kept.ies]
    exact holds.reset

theorem ratesElement_eq {pie : Nat} (done : ratesElement side len s pie = some after) :
    after.buf = s.buf ∧ after.written = s.written ∧ after.net.ies = s.net.ies ∧
      after.net.iesLength = s.net.iesLength ∧
      after.net.rate.len =
        if ieSize s.buf pie < 16 - s.net.rate.len then
          s.net.rate.len + ((s.buf.read (pie + 2) (ieSize s.buf pie)).filter
            (knownRate side.datarate)).length
        else s.net.rate.len := by
  unfold ratesElement at done
  split_ifs at done with full
  · cases done
    rw [if_neg (by omega)]
    exact ⟨rfl, rfl, rfl, rfl, rfl⟩
  · obtain ⟨-, -, done⟩ := Option.bind_eq_some_iff.mp done
    obtain ⟨rate, kept, same⟩ := Option.bind_eq_some_iff.mp done
    cases same
    rw [foldlM_keepRate] at kept
    have held := congrArg List.length (Counted.pushes_held kept)
    rw [Counted.length_held, List.length_append, Counted.length_held, startRates_len] at held
    rw [if_pos (by omega)]
    exact ⟨rfl, rfl, rfl, rfl, held⟩

theorem Holds.rated (holds : Holds side buf n ofs past s) (small : n ≤ iesSizeMax)
    (header : ofs.toNat + 2 ≤ n) (rates : isRates buf (fixedFields + ofs.toNat))
    (done : ratesElement side len s (fixedFields + ofs.toNat) = some after) :
    Holds side buf n (ofs + (2 + (buf (fixedFields + ofs.toNat + 1)).toUInt16))
      (past.behind side buf (fixedFields + ofs.toNat)) after := by
  obtain ⟨unwritten, written, ies, iesLength, count⟩ := ratesElement_eq done
  have other : buf (fixedFields + ofs.toNat) ≠ eidDs := by
    rcases rates with id | id <;> rw [id] <;> decide
  have same : (past.behind side buf (fixedFields + ofs.toNat)).ds = past.ds := by
    simp [Past.behind, other]
  constructor
  · rw [unwritten, holds.unwritten]
  · rw [written, holds.written]
  · rw [count, holds.rates, holds.unwritten]
    simp only [Past.behind, rates, true_and]
  · rw [iesLength, holds.iesLength]
  · rw [ies, same]
    exact holds.copied
  · rw [ies, same]
    exact fun none => holds.pass small header other none
  · rw [ies, same]
    exact holds.reset

theorem dsElement_eq {pie : Nat} : dsElement side len s pie =
    if linked side.buddy = false then ownChannel len s pie
    else
      match stationChannel side.buddy with
      | none => some s
      | some channel =>
          (wfApResetBeaconChannel channel s.net.ies s.net.iesLength).bind fun ies =>
            some { s with net := { s.net with channel, ies } } := by
  unfold dsElement stationChannel linked
  cases side.buddy with
  | none => rfl
  | some b =>
      by_cases link : b.connect = true ∧ b.workMode = .infra
      · cases wdn : b.wdn <;> simp [link, wdn]
      · simp [link]

/-- The channel of a station goes into the element when there is room in front of the end. -/
theorem Holds.reset_isSome (holds : Holds side buf n ofs past s) {channel : UInt8}
    (station : stationChannel side.buddy = some channel) (more : ofs.toNat < n)
    (ds : buf (fixedFields + ofs.toNat) = eidDs) :
    (wfApResetBeaconChannel channel s.net.ies n).isSome ↔
      (past.ds = false → ofs.toNat + 3 ≤ iesSizeMax) := by
  cases earlier : past.ds with
  | true =>
      have again := (holds.reset earlier channel station).2
      simp [again]
  | false =>
      obtain ⟨fuel, enough, same⟩ := holds.clear earlier channel
      obtain _ | fuel := fuel
      · omega
      have id := @Holds.byte side buf n ofs past s holds (Or.inl earlier) ofs.toNat more
      rw [same, resetLoop, if_pos more, id]
      simp only [Option.bind_eq_bind, Option.bind_some, ds, if_true, store_isSome,
        List.length_singleton, forall_const]

theorem ownChannel_clean {pie : Nat} (none : s.written = []) :
    Clean (ownChannel len s pie) ↔ pie + 3 ≤ len :=
  (clean_bind_first fun _ => by simp [none]).trans look_isSome

theorem stationChannel_unlinked {buddy : Option BuddyNic} (off : linked buddy = false) :
    stationChannel buddy = none := by
  simp [stationChannel, off]

theorem Holds.ds_clean (holds : Holds side buf n ofs past s) (more : ofs.toNat < n)
    (ds : buf (fixedFields + ofs.toNat) = eidDs) :
    Clean (dsElement side len s (fixedFields + ofs.toNat)) ↔
      (linked side.buddy = false → fixedFields + ofs.toNat + 3 ≤ len) ∧
        ((stationChannel side.buddy).isSome → past.ds = false →
          fixedFields + ofs.toNat + 3 ≤ fixedFields + iesSizeMax) := by
  have room : fixedFields + ofs.toNat + 3 ≤ fixedFields + iesSizeMax ↔
      ofs.toNat + 3 ≤ iesSizeMax := by omega
  rw [dsElement_eq, room]
  cases link : linked side.buddy with
  | false => simp [ownChannel_clean holds.written, stationChannel_unlinked link]
  | true =>
      cases station : stationChannel side.buddy with
      | none => simp [holds.written]
      | some channel =>
          simp only [reduceCtorEq, if_false, false_imp_iff, true_and, Option.isSome_some,
            forall_const, holds.iesLength, ← holds.reset_isSome station more ds]
          exact clean_bind_first fun _ => by simp [holds.written]

/-- The element changes the template only for the channel of a station. -/
theorem dsElement_spec {pie : Nat} (done : dsElement side len s pie = some after) :
    after.buf = s.buf ∧ after.written = s.written ∧ after.net.rate = s.net.rate ∧
      after.net.iesLength = s.net.iesLength ∧
      (stationChannel side.buddy = none → after.net.ies = s.net.ies) ∧
      ∀ channel ∈ stationChannel side.buddy,
        wfApResetBeaconChannel channel s.net.ies s.net.iesLength = some after.net.ies := by
  rw [dsElement_eq] at done
  split_ifs at done with link
  · obtain ⟨-, -, same⟩ := Option.bind_eq_some_iff.mp done
    cases same
    simp [stationChannel_unlinked link]
  · cases station : stationChannel side.buddy with
    | none =>
        rw [station] at done
        cases done
        simp
    | some channel =>
        rw [station] at done
        obtain ⟨ies, reset, same⟩ := Option.bind_eq_some_iff.mp done
        cases same
        simp [reset]

/-- The template with the channel of a station, which is not changed again. -/
theorem Holds.reset_take (holds : Holds side buf n ofs past s) (small : n ≤ iesSizeMax)
    {channel : UInt8} (station : stationChannel side.buddy = some channel)
    {ies : Vector UInt8 iesSizeMax}
    (done : wfApResetBeaconChannel channel s.net.ies n = some ies) :
    ies.toList.take n = resetBeaconChannel channel (buf.read fixedFields n) ∧
      wfApResetBeaconChannel channel ies n = some ies := by
  cases earlier : past.ds with
  | true =>
      obtain ⟨bytes, again⟩ := holds.reset earlier channel station
      rw [again] at done
      cases done
      exact ⟨bytes, again⟩
  | false =>
      have bytes := resetLoop_take small done
      rw [holds.copied (Or.inl earlier)] at bytes
      exact ⟨by simpa using bytes, resetLoop_again small done⟩

/-- From the first DS element on the template has the channel of a station. -/
theorem Holds.ds (holds : Holds side buf n ofs past s) (small : n ≤ iesSizeMax)
    (ds : buf (fixedFields + ofs.toNat) = eidDs)
    (done : dsElement side len s (fixedFields + ofs.toNat) = some after) :
    Holds side buf n (ofs + (2 + (buf (fixedFields + ofs.toNat + 1)).toUInt16))
      (past.behind side buf (fixedFields + ofs.toNat)) after := by
  obtain ⟨unwritten, written, rate, iesLength, own, reset⟩ := dsElement_spec done
  have rates : ¬ isRates buf (fixedFields + ofs.toNat) := by
    unfold isRates
    rw [ds]
    decide
  have here : (past.behind side buf (fixedFields + ofs.toNat)).ds = true := by
    simp [Past.behind, ds]
  rw [holds.iesLength] at iesLength reset
  constructor
  · rw [unwritten, holds.unwritten]
  · rw [written, holds.written]
  · rw [rate, holds.rates]
    simp [Past.behind, rates]
  · exact iesLength
  · rw [here]
    intro earlier
    have unset : stationChannel side.buddy = none := by simpa using earlier
    rw [own unset]
    exact holds.copied (Or.inr unset)
  · rw [here]
    rintro ⟨⟩
  · exact fun _ channel station => holds.reset_take small station (reset channel station)

/-! ## The elements together -/

theorem Holds.element_clean (holds : Holds side buf n ofs past s) (more : ofs.toNat < n) :
    Clean (element side len s (fixedFields + ofs.toNat)) ↔
      ElementFits side buf len (fixedFields + ofs.toNat) past := by
  obtain rfl := holds.unwritten
  have written := holds.written
  have ratesClean := @ratesElement_clean side len s (fixedFields + ofs.toNat) written
  have dsClean := fun ds => @Holds.ds_clean side s.buf len n ofs past s holds more ds
  rw [holds.rates] at ratesClean
  generalize fixedFields + ofs.toNat = pie at *
  refine (clean_bind fun _ => Iff.rfl).trans ?_
  rw [elementFits_iff, look_isSome]
  refine and_congr_right fun header => ?_
  simp only [isRates]
  split_ifs with ssid ds rates rsn vendor htCap htOper
  · rw [ssidElement_clean written]
    simp +decide [ssid]
  · rw [dsClean ds]
    simp +decide [ds]
  · rw [ratesClean]
    rcases rates with id | id <;> simp +decide [id]
  · rw [rsnElement_clean written rsn header]
    simp +decide [rsn]
  · rw [vendorElement_clean written vendor]
    simp +decide [vendor]
  · rw [htCapElement_clean written]
    simp +decide [htCap]
  · rw [htOperElement_clean written]
    simp +decide [htOper]
  · simp [written, ssid, ds, rates, rsn, vendor, htCap, htOper]

theorem Holds.round (holds : Holds side buf n ofs past s) (small : n ≤ iesSizeMax)
    (header : ofs.toNat + 2 ≤ n)
    (done : element side len s (fixedFields + ofs.toNat) = some after)
    (clean : after.written = []) :
    Holds side buf n (ofs + (2 + (buf (fixedFields + ofs.toNat + 1)).toUInt16))
      (past.behind side buf (fixedFields + ofs.toNat)) after := by
  obtain rfl := holds.unwritten
  obtain ⟨-, -, done⟩ := Option.bind_eq_some_iff.mp done
  split_ifs at done with ssid ds rates rsn vendor htCap htOper
  · have other : s.buf (fixedFields + ofs.toNat) ≠ eidDs ∧
        ¬ isRates s.buf (fixedFields + ofs.toNat) := by
      unfold isRates
      rw [ssid]
      decide
    exact holds.kept small header other.1 other.2 (ssidElement_kept after done clean) clean
  · exact holds.ds small ds done
  · exact holds.rated small header rates done
  · exact holds.kept small header ds rates (rsnElement_kept after done clean) clean
  · exact holds.kept small header ds rates (vendorElement_kept after done clean) clean
  · exact holds.kept small header ds rates (htCapElement_kept after done clean) clean
  · exact holds.kept small header ds rates (htOperElement_kept after done clean) clean
  · exact holds.kept small header ds rates (keptBy_self s after done clean) clean

end Round

/-! ## The loop -/

section Loop

variable {side : Side} {buf : Mem} {len : Nat} {varLen ofs : UInt16} {past : Past}
  {s after : State} {fuel : Nat}

/-- What has been written to the buffer stays written, and the template keeps its length. -/
theorem element_frame {pie : Nat} (done : element side len s pie = some after)
    (clean : after.written = []) :
    s.written = [] ∧ after.net.iesLength = s.net.iesLength := by
  obtain ⟨-, -, done⟩ := Option.bind_eq_some_iff.mp done
  have frame (kept : Kept s after) : s.written = [] ∧ after.net.iesLength = s.net.iesLength :=
    ⟨kept.written.symm.trans clean, kept.iesLength⟩
  split_ifs at done
  · exact frame (ssidElement_kept after done clean)
  · obtain ⟨-, written, -, iesLength, -⟩ := dsElement_spec done
    exact ⟨written.symm.trans clean, iesLength⟩
  · obtain ⟨-, written, -, iesLength, -⟩ := ratesElement_eq done
    exact ⟨written.symm.trans clean, iesLength⟩
  · exact frame (rsnElement_kept after done clean)
  · exact frame (vendorElement_kept after done clean)
  · exact frame (htCapElement_kept after done clean)
  · exact frame (htOperElement_kept after done clean)
  · exact frame (keptBy_self s after done clean)

theorem elementsLoop_frame (done : elementsLoop side len varLen fuel ofs s = some after)
    (clean : after.written = []) :
    s.written = [] ∧ after.net.iesLength = s.net.iesLength := by
  induction fuel generalizing ofs s with
  | zero => cases done
  | succ fuel ih =>
      rw [elementsLoop] at done
      split_ifs at done with more
      · obtain ⟨middle, first, rest⟩ := Option.bind_eq_some_iff.mp done
        obtain ⟨kept, behind⟩ := ih rest
        obtain ⟨written, iesLength⟩ := element_frame first kept
        exact ⟨written, behind.trans iesLength⟩
      · cases done
        exact ⟨clean, rfl⟩

/-- Behind an element that fits the loop goes on with the next one. -/
theorem Holds.next (holds : Holds side buf varLen.toNat ofs past s)
    (small : varLen.toNat ≤ iesSizeMax) (last : len = fixedFields + varLen.toNat)
    (more : ofs.toNat < varLen.toNat)
    (first : element side len s (fixedFields + ofs.toNat) = some after)
    (clean : after.written = []) :
    Holds side buf varLen.toNat
        (ofs + (2 + (after.buf (fixedFields + ofs.toNat + 1)).toUInt16))
        (past.behind side buf (fixedFields + ofs.toNat)) after ∧
      (ofs + (2 + (after.buf (fixedFields + ofs.toNat + 1)).toUInt16)).toNat =
        ofs.toNat + (2 + ieSize buf (fixedFields + ofs.toNat)) := by
  have header := ((holds.element_clean more).mp ⟨after, first, clean⟩).header
  have behind := holds.round small (by omega) first clean
  rw [behind.unwritten]
  exact ⟨behind, next_toNat (by omega) _⟩

/-- The loop ends without a write to the buffer when each element from here on fits. -/
theorem Holds.loop_clean (holds : Holds side buf varLen.toNat ofs past s)
    (small : varLen.toNat ≤ iesSizeMax) (last : len = fixedFields + varLen.toNat)
    (enough : varLen.toNat - ofs.toNat < fuel) :
    Clean (elementsLoop side len varLen fuel ofs s) ↔
      ∀ place, Relation.ReflTransGen (Turn side buf varLen.toNat) (ofs.toNat, past) place →
        PlaceFits side buf len varLen.toNat place := by
  induction fuel generalizing ofs past s with
  | zero => omega
  | succ fuel ih =>
      rw [forall_reached_iff, elementsLoop]
      by_cases more : ofs.toNat < varLen.toNat
      · have turn (after : Nat × Past) : Turn side buf varLen.toNat (ofs.toNat, past) after ↔
            after = (ofs.toNat + (2 + ieSize buf (fixedFields + ofs.toNat)),
              past.behind side buf (fixedFields + ofs.toNat)) :=
          ⟨fun ⟨_⟩ => rfl, fun same => same ▸ .element more⟩
        have here : PlaceFits side buf len varLen.toNat (ofs.toNat, past) ↔
            Clean (element side len s (fixedFields + ofs.toNat)) := by
          rw [holds.element_clean more]
          exact ⟨fun fits => fits more, fun fits _ => fits⟩
        rw [if_pos (UInt16.lt_iff_toNat_lt.mpr more), here]
        simp only [turn, forall_eq]
        cases first : element side len s (fixedFields + ofs.toNat) with
        | none => simp
        | some middle =>
            rw [Option.bind_eq_bind, Option.bind_some, clean_some]
            constructor
            · rintro ⟨after, done, clean⟩
              have kept := (elementsLoop_frame done clean).1
              obtain ⟨behind, ofs'⟩ := holds.next small last more first kept
              refine ⟨kept, ?_⟩
              rw [← ofs']
              exact (ih behind (by omega)).mp ⟨after, done, clean⟩
            · rintro ⟨kept, rest⟩
              obtain ⟨behind, ofs'⟩ := holds.next small last more first kept
              rw [← ofs'] at rest
              exact (ih behind (by omega)).mpr rest
      · have stops : ∀ after, ¬ Turn side buf varLen.toNat (ofs.toNat, past) after := by
          rintro after ⟨less⟩
          exact more less
        rw [if_neg (mt UInt16.lt_iff_toNat_lt.mp more), clean_some]
        simp only [holds.written, true_iff]
        exact ⟨fun less => absurd less more, fun after turn => absurd turn (stops after)⟩

/-- Where no element is one of DS, its channel is not replaced. -/
theorem Holds.template (holds : Holds side buf varLen.toNat ofs past s)
    (small : varLen.toNat ≤ iesSizeMax) (ends : varLen.toNat ≤ ofs.toNat) :
    s.net.ies.toList.take varLen.toNat =
      adjusted side.buddy (buf.read fixedFields varLen.toNat) := by
  unfold adjusted
  cases station : stationChannel side.buddy with
  | none => exact holds.copied (Or.inr station)
  | some channel =>
      cases earlier : past.ds with
      | true => exact (holds.reset earlier channel station).1
      | false =>
          obtain ⟨fuel, enough, same⟩ := holds.clear earlier channel
          obtain _ | fuel := fuel
          · omega
          have done : wfApResetBeaconChannel channel s.net.ies varLen.toNat =
              some s.net.ies := by
            rw [same, resetLoop, if_neg (by omega)]
          exact (holds.reset_take small station done).1

theorem Holds.loop (holds : Holds side buf varLen.toNat ofs past s)
    (small : varLen.toNat ≤ iesSizeMax) (last : len = fixedFields + varLen.toNat)
    (done : elementsLoop side len varLen fuel ofs s = some after)
    (clean : after.written = []) :
    after.net.template = adjusted side.buddy (buf.read fixedFields varLen.toNat) := by
  induction fuel generalizing ofs past s with
  | zero => cases done
  | succ fuel ih =>
      rw [elementsLoop] at done
      split_ifs at done with more
      · obtain ⟨middle, first, rest⟩ := Option.bind_eq_some_iff.mp done
        have kept := (elementsLoop_frame rest clean).1
        exact ih (holds.next small last (UInt16.lt_iff_toNat_lt.mp more) first kept).1 rest
      · cases done
        rw [Network.template, holds.iesLength]
        exact holds.template small (Nat.not_lt.mp (mt UInt16.lt_iff_toNat_lt.mpr more))

end Loop

/-! ## The function -/

section Function

variable {side : Side} {buf : Mem} {len : UInt32} {net : Network}

theorem varLenOf_toNat (more : fixedFields < len.toNat) :
    (varLenOf len).toNat = (len.toNat - fixedFields) % 65536 := by
  have twelve : (UInt32.ofNat fixedFields).toNat = fixedFields := rfl
  rw [varLenOf, UInt32.toNat_toUInt16, UInt32.toNat_sub_of_le, twelve]
  rw [UInt32.le_iff_toNat_le, twelve]
  omega

theorem length_resetBeaconChannel (channel : UInt8) (bytes : List UInt8) :
    (resetBeaconChannel channel bytes).length = bytes.length := by
  fun_induction resetBeaconChannel channel bytes with
  | case1 len rest => simp
  | case2 e len rest other ih =>
      simp [ih]
      omega
  | case3 bytes short => rfl

theorem length_adjusted (buddy : Option BuddyNic) (elements : List UInt8) :
    (adjusted buddy elements).length = elements.length := by
  unfold adjusted
  split
  · rfl
  · exact length_resetBeaconChannel _ _

theorem Holds.initial {ies : Vector UInt8 iesSizeMax} {varLen : UInt16}
    (copied : store net.ies 0 (buf.read fixedFields varLen.toNat) = some ies) :
    Holds side buf varLen.toNat 0 ⟨0, false⟩
      ⟨buf, [], net.initial side buf ies varLen⟩ := by
  constructor
  · rfl
  · rfl
  · rfl
  · rfl
  · intro _
    have bytes := take_store_zero copied
    rwa [Mem.length_read] at bytes
  · intro _ channel
    refine ⟨varLen.toNat + 1, ?_, rfl⟩
    omega
  · rintro ⟨⟩

/-- A configuration that is not refused. -/
theorem wfApSetBeacon_accepted (more : fixedFields < len.toNat) (ret : Int) (after : State) :
    wfApSetBeacon side buf len net = some (ret, after) ↔
      ∃ ies, store net.ies 0 (buf.read fixedFields (varLenOf len).toNat) = some ies ∧
        ret = 0 ∧
        elementsLoop side len.toNat (varLenOf len) ((varLenOf len).toNat + 1) 0
          ⟨buf, [], net.initial side buf ies (varLenOf len)⟩ = some after := by
  have varLen := varLenOf_toNat more
  have fixed : inside len.toNat 8 4 = some () := if_pos (by unfold fixedFields at more; omega)
  have elements : inside len.toNat fixedFields (varLenOf len).toNat = some () :=
    if_pos (by omega)
  rw [wfApSetBeacon, if_neg (by omega), fixed, elements]
  simp only [Option.bind_eq_bind, Option.bind_some, Option.bind_eq_some_iff, Option.some.injEq,
    Prod.mk.injEq]
  constructor
  · rintro ⟨ies, copied, s, done, zero, rfl⟩
    exact ⟨ies, copied, zero.symm, done⟩
  · rintro ⟨ies, copied, zero, done⟩
    exact ⟨ies, copied, after, done, zero.symm, rfl⟩

/-- A buffer of which the template has all elements is not too long for it. -/
theorem short_of_template {after : State} (more : fixedFields < len.toNat)
    (stored : (varLenOf len).toNat ≤ iesSizeMax)
    (iesLength : after.net.iesLength = (varLenOf len).toNat)
    (whole : after.net.template = adjusted side.buddy (elementPart buf len)) :
    len.toNat = fixedFields + (varLenOf len).toNat := by
  have varLen := varLenOf_toNat more
  have lengths := congrArg List.length whole
  rw [Network.template, iesLength, length_adjusted, elementPart, Mem.length_read,
    List.length_take, Vector.length_toList] at lengths
  omega

theorem configures_iff (more : fixedFields < len.toNat) :
    Configures side buf len net ↔ BufferFits side buf len := by
  have varLen := varLenOf_toNat more
  have enough : (varLenOf len).toNat - (0 : UInt16).toNat < (varLenOf len).toNat + 1 := by omega
  constructor
  · rintro ⟨ret, after, accepted, clean, -, success⟩
    obtain ⟨ies, copied, zero, done⟩ := (wfApSetBeacon_accepted more ret after).mp accepted
    have holds := @Holds.initial side buf net ies (varLenOf len) copied
    have fits : (store net.ies 0 (buf.read fixedFields (varLenOf len).toNat)).isSome := by
      simp [copied]
    rw [store_isSome, Mem.length_read, Nat.zero_add] at fits
    have last := short_of_template more fits (elementsLoop_frame done clean).2 (success zero)
    have places := (holds.loop_clean fits last enough).mp ⟨after, done, clean⟩
    have elements : (varLenOf len).toNat = len.toNat - fixedFields := by omega
    rw [elements] at places
    exact ⟨by omega, places⟩
  · rintro ⟨short, places⟩
    have elements : len.toNat - fixedFields = (varLenOf len).toNat := by
      unfold iesSizeMax at short
      omega
    have fits : (varLenOf len).toNat ≤ iesSizeMax := by omega
    obtain ⟨ies, copied⟩ := Option.isSome_iff_exists.mp
      (store_isSome.mpr (by rw [Mem.length_read]; omega) :
        (store net.ies 0 (buf.read fixedFields (varLenOf len).toNat)).isSome)
    have holds := @Holds.initial side buf net ies (varLenOf len) copied
    rw [elements] at places
    obtain ⟨after, done, clean⟩ := (holds.loop_clean fits (by omega) enough).mpr places
    refine ⟨0, after, (wfApSetBeacon_accepted more 0 after).mpr ⟨ies, copied, rfl, done⟩, clean,
      fun error => absurd rfl error, fun _ => ?_⟩
    rw [elementPart, elements]
    exact holds.loop fits (by omega) done clean

end Function

/--
The function keeps inside of the buffer and of the fields and stores the elements exactly for a
buffer that is refused or that fits.
-/
theorem set_beacon_iff (side : Side) (buf : Mem) (len : UInt32) (net : Network) :
    Configures side buf len net ↔ len.toNat ≤ fixedFields ∨ BufferFits side buf len := by
  by_cases refused : len.toNat ≤ fixedFields
  · refine iff_of_true ⟨-1, ⟨buf, [], net⟩, if_pos refused, rfl, fun _ => rfl, ?_⟩ (Or.inl refused)
    rintro ⟨⟩
  · simp [refused, configures_iff (Nat.not_le.mp refused)]

/-- A buffer with an element for the HT capabilities that is a byte longer than the field. -/
def longHtCapability : Mem := fun i =>
  ([45, 27] : List UInt8).getD (i - fixedFields) 0

def emptySide : Side where
  localAddr := Vector.replicate 6 0
  datarate := [0x82, 0x84, 0x8b, 0x96]
  p2pValid := false
  buddy := none

def emptyNetwork : Network where
  macAddr := Vector.replicate 6 0
  bssid := Vector.replicate 6 0
  bcnInterval := 0
  capInfo := 0
  ssid := Vector.replicate 33 0
  ssidLen := 0
  channel := 0
  rate := ⟨Vector.replicate 16 0, 0, noRates_le⟩
  pwmm := Vector.replicate 26 0
  phtCap := Vector.replicate 26 0
  phtOper := Vector.replicate 22 0
  htEnable := false
  ies := Vector.replicate iesSizeMax 0
  iesLength := 0
  sec := ⟨⟨0, 0⟩, ⟨0, 0⟩, 0, 0⟩
  p2p := ⟨Vector.replicate 32 0, 0, Vector.replicate 1024 0, 0⟩

/-- The field is written past its end. -/
theorem ht_capability_field_overflow :
    ¬ ∀ (side : Side) (buf : Mem) (len : UInt32) (net : Network),
      Configures side buf len net := by
  intro configures
  obtain ⟨ret, after, done, -⟩ := configures emptySide longHtCapability 41 emptyNetwork
  have outside : (wfApSetBeacon emptySide longHtCapability 41 emptyNetwork).isSome = false := by
    decide +kernel
  simp [done] at outside

end SetBeacon

end Smartchip.Ap
