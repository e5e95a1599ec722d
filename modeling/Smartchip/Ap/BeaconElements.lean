import Smartchip.Ap.BeaconAccess

/-!
# The elements of a beacon configuration

What an element has to be like for its round of the loop in `wf_ap_set_beacon` to keep inside of
the buffer and of the fields, and to leave the buffer as it is.
-/

namespace Smartchip.Ap

open Smartchip.Foundation Smartchip.Frame

namespace SetBeacon

/-! ## Elements that fit -/

section Fits

variable (side : Side) (buf : Mem) (len pie : Nat)

/-- How many rates are kept so far, and whether there has been a DS element. -/
structure Past where
  rates : Nat
  ds : Bool

def isRates : Prop := buf pie = eidSuppRates ∨ buf pie = eidExtSuppRates

instance : Decidable (isRates buf pie) := inferInstanceAs (Decidable (_ ∨ _))

/-- A list for which there is not enough room is left out. -/
def Past.behind (past : Past) : Past where
  rates :=
    if isRates buf pie ∧ ieSize buf pie < 16 - past.rates then
      past.rates + ((buf.read (pie + 2) (ieSize buf pie)).filter
        (knownRate side.datarate)).length
    else past.rates
  ds := past.ds || buf pie = eidDs

/-- Where the data ends that a parser of cipher suites looks at. -/
def suitesEnd (f : SuiteFormat) : Nat :=
  pie + 2 + (f.outcome (fromIe buf pie) (ieSize buf pie)).reach f.pre (f.count (fromIe buf pie))

def wpaParsed : Parsed :=
  wf80211MgmtWpaParseAt (fromIe buf pie) (UInt16.ofNat (2 + ieSize buf pie))

/-- How far it is looked whether an element is one for WMM. -/
def wmmLooked : Nat :=
  if buf.read (pie + 2) 4 = wmmOui.take 4 then 8
  else if buf.read (pie + 2) 3 = wmmOui.take 3 then 6 else 5

structure P2pFits : Prop where
  looked : pie + 6 ≤ len
  stored : buf.read (pie + 2) 4 = p2pOui → pie + 2 + ieSize buf pie ≤ len

/-- An element for WMM is adjusted in the buffer. -/
structure VendorFits : Prop where
  suites : suitesEnd buf pie wpaFormat ≤ len
  looked : (wpaParsed buf pie).ret ≠ 0 → pie + wmmLooked buf pie ≤ len
  other : (wpaParsed buf pie).ret ≠ 0 → buf.read (pie + 2) 6 ≠ wmmOui
  p2p : (wpaParsed buf pie).ret ≠ 0 → side.p2pValid = true → P2pFits buf len pie

/-- An element whose data is not looked at may be cut short. -/
@[mk_iff] structure ElementFits (past : Past) : Prop where
  header : pie + 2 ≤ len
  ssid : buf pie = eidSsid → ieSize buf pie ≤ 32 → pie + 2 + ieSize buf pie ≤ len
  channel : buf pie = eidDs → linked side.buddy = false → pie + 3 ≤ len
  reset : buf pie = eidDs → (stationChannel side.buddy).isSome → past.ds = false →
    pie + 3 ≤ fixedFields + iesSizeMax
  rates : isRates buf pie → ieSize buf pie < 16 - past.rates →
    side.datarate.takeWhile (· ≠ 0) ≠ [] → pie + 2 + ieSize buf pie ≤ len
  rsn : buf pie = eidRsn → suitesEnd buf pie rsnFormat ≤ len
  vendor : buf pie = eidVendorSpecific → VendorFits side buf len pie
  htCap : buf pie = eidHtCapability → ieSize buf pie ≤ 26 ∧ pie + 2 + ieSize buf pie ≤ len
  htOper : buf pie = eidHtOperation → ieSize buf pie ≤ 22 ∧ pie + 2 + ieSize buf pie ≤ len

end Fits

/-! ## Steps that leave the buffer alone -/

/-- The step has a value, and nothing has been written to the buffer. -/
def Clean (step : Option State) : Prop := ∃ after, step = some after ∧ after.written = []

/-- Of what the later elements depend on, the step changes nothing. -/
structure Kept (s after : State) : Prop where
  buf : after.buf = s.buf
  written : after.written = s.written
  rate : after.net.rate = s.net.rate
  ies : after.net.ies = s.net.ies
  iesLength : after.net.iesLength = s.net.iesLength

def KeptBy (s : State) (step : Option State) : Prop :=
  ∀ after, step = some after → after.written = [] → Kept s after

section Clean

variable {α : Type} {s after : State} {first : Option α} {fits : Prop}

@[simp] theorem clean_some : Clean (some s) ↔ s.written = [] := by simp [Clean]

@[simp] theorem clean_none : ¬ Clean none := by simp [Clean]

theorem clean_bind {rest : α → Option State} (same : ∀ a, Clean (rest a) ↔ fits) :
    Clean (first.bind rest) ↔ first.isSome ∧ fits := by
  cases first <;> simp [same]

theorem clean_bind_first {rest : α → Option State} (clean : ∀ a, Clean (rest a)) :
    Clean (first.bind rest) ↔ first.isSome := by
  cases first <;> simp [clean]

theorem clean_bind_of {rest : α → Option State} (here : first.isSome)
    (clean : ∀ a, Clean (rest a)) : Clean (first.bind rest) :=
  (clean_bind_first clean).mpr here

theorem keptBy_bind {rest : α → Option State} (kept : ∀ a, KeptBy s (rest a)) :
    KeptBy s (first.bind rest) := by
  cases first with
  | none => simp [KeptBy]
  | some a => exact kept a

theorem keptBy_some (kept : Kept s after) : KeptBy s (some after) := by
  rintro _ ⟨⟩ -
  exact kept

theorem keptBy_self (s : State) : KeptBy s (some s) := keptBy_some ⟨rfl, rfl, rfl, rfl, rfl⟩

theorem keptBy_ite {called : Prop} [Decidable called] {step other : Option State}
    (first : KeptBy s step) (second : KeptBy s other) :
    KeptBy s (if called then step else other) := by
  split_ifs
  · exact first
  · exact second

end Clean

section Elements

variable {side : Side} {len : Nat} {s : State} {pie : Nat}

@[simp] theorem look_isSome {ofs n : Nat} :
    (look len pie ofs n).isSome ↔ pie + ofs + n ≤ len := inside_isSome

@[simp] theorem copy_isSome {size : Nat} {field : Vector UInt8 size} {ofs n : Nat} :
    (copy len s pie field ofs n).isSome ↔ pie + ofs + n ≤ len ∧ n ≤ size := by
  simp [copy]

/-! ## The SSID and the fields for 802.11n -/

theorem ssidElement_clean (none : s.written = []) :
    Clean (ssidElement side len s pie) ↔
      (ieSize s.buf pie ≤ 32 → pie + 2 + ieSize s.buf pie ≤ len) := by
  unfold ssidElement
  split_ifs with long
  · simp only [clean_some, none, true_iff]
    omega
  · have group (ssid : Vector UInt8 33) :
        (keepGroupSsid side s.net.p2p ssid (ieSize s.buf pie)).isSome := by
      unfold keepGroupSsid
      split_ifs
      · simp
        omega
      · rfl
    have ends (ssid : Vector UInt8 33) : (store ssid (ieSize s.buf pie) [0]).isSome := by
      simp
      omega
    refine (clean_bind_first fun ssid => clean_bind_of (ends ssid) fun ssid =>
      clean_bind_of (group ssid) fun _ => by simp [none]).trans ?_
    rw [copy_isSome]
    omega

theorem ssidElement_kept : KeptBy s (ssidElement side len s pie) :=
  keptBy_ite (keptBy_self s)
    (keptBy_bind fun _ => keptBy_bind fun _ => keptBy_bind fun _ =>
      keptBy_some ⟨rfl, rfl, rfl, rfl, rfl⟩)

theorem htCapElement_clean (none : s.written = []) :
    Clean (htCapElement len s pie) ↔
      ieSize s.buf pie ≤ 26 ∧ pie + 2 + ieSize s.buf pie ≤ len := by
  refine (clean_bind_first fun _ => by simp [none]).trans ?_
  rw [copy_isSome, and_comm]

theorem htOperElement_clean (none : s.written = []) :
    Clean (htOperElement len s pie) ↔
      ieSize s.buf pie ≤ 22 ∧ pie + 2 + ieSize s.buf pie ≤ len := by
  refine (clean_bind_first fun _ => by simp [none]).trans ?_
  rw [copy_isSome, and_comm]

theorem htCapElement_kept : KeptBy s (htCapElement len s pie) :=
  keptBy_bind fun _ => keptBy_some ⟨rfl, rfl, rfl, rfl, rfl⟩

theorem htOperElement_kept : KeptBy s (htOperElement len s pie) :=
  keptBy_bind fun _ => keptBy_some ⟨rfl, rfl, rfl, rfl, rfl⟩

/-! ## The rates -/

theorem foldlM_keepRate {datarate data : List UInt8} {rate : Counted UInt8 16} :
    data.foldlM (keepRate datarate) rate =
      (data.filter (knownRate datarate)).foldlM Counted.push rate := by
  rw [List.foldlM_filter]
  rfl

theorem startRates_len (rate : Counted UInt8 16) : (startRates rate).len = rate.len := by
  unfold startRates
  split_ifs with none
  · exact none.symm
  · rfl

/-- The rates that are kept are not more than the element has. -/
theorem ratesElement_clean (none : s.written = []) :
    Clean (ratesElement side len s pie) ↔
      (ieSize s.buf pie < 16 - s.net.rate.len → side.datarate.takeWhile (· ≠ 0) ≠ [] →
        pie + 2 + ieSize s.buf pie ≤ len) := by
  unfold ratesElement
  split_ifs with full
  · simp only [clean_some, none, true_iff]
    omega
  · have few := List.length_filter_le (knownRate side.datarate)
      (s.buf.read (pie + 2) (ieSize s.buf pie))
    rw [Mem.length_read] at few
    have room : ((s.buf.read (pie + 2) (ieSize s.buf pie)).foldlM (keepRate side.datarate)
        (startRates s.net.rate)).isSome := by
      rw [foldlM_keepRate, Counted.pushes_isSome, startRates_len]
      omega
    have more : ieSize s.buf pie < 16 - s.net.rate.len := by omega
    refine (clean_bind_first fun _ => clean_bind_of room fun _ => by simp [none]).trans ?_
    simp only [onlyIf_isSome, look_isSome, more, forall_const]

end Elements

/-! ## Elements with cipher suites -/

section Suites

variable {side : Side} {len : Nat} {s : State} {pie : Nat}

theorem parseReads_isSome {buf : Mem} {f : SuiteFormat} (eid : buf pie = f.eid) :
    (parseReads len pie (f.parse (fromIe buf pie) (UInt16.ofNat (2 + ieSize buf pie)))).isSome ↔
      suitesEnd buf pie f ≤ len := by
  simp only [parseReads, forM_isSome, look_isSome]
  exact own_reads_iff eid

/-- The parser for WPA looks at no more than the header of another element. -/
theorem wpaParsed_other {buf : Mem} (other : buf pie ≠ eidVendorSpecific)
    (header : pie + 2 ≤ len) :
    (wpaParsed buf pie).ret ≠ 0 ∧ (parseReads len pie (wpaParsed buf pie)).isSome := by
  have own := (own_length buf pie).1
  have parsed : wpaParsed buf pie = ⟨-2, none, none, [0]⟩ := by
    unfold wpaParsed wf80211MgmtWpaParseAt SuiteFormat.parse
    rw [if_neg own]
    exact if_pos other
  rw [parsed]
  simp [parseReads]
  omega

/-! ## Elements for WMM and for P2P -/

/-- Both are clear from how far the bytes are those of an element for WMM. -/
theorem wmmParse_spec (eid : s.buf pie = eidVendorSpecific) :
    ((wf80211MgmtWmmParseAt len s pie).isSome ↔ pie + wmmLooked s.buf pie ≤ len) ∧
      ∀ ret, wf80211MgmtWmmParseAt len s pie = some ret →
        (ret = 0 ↔ s.buf.read (pie + 2) 6 = wmmOui) := by
  have shorter (n : Nat) (inside : n ≤ 6) (wmm : s.buf.read (pie + 2) 6 = wmmOui) :
      s.buf.read (pie + 2) n = wmmOui.take n := by
    rw [← wmm, Mem.take_read s.buf (pie + 2) inside]
  have three : s.buf.read (pie + 2) 4 = wmmOui.take 4 →
      s.buf.read (pie + 2) 3 = wmmOui.take 3 := by
    intro four
    have first := congrArg (List.take 3) four
    rwa [Mem.take_read s.buf (pie + 2) (by omega)] at first
  simp only [wf80211MgmtWmmParseAt, wmmLooked, eid, ne_eq, not_true_eq_false, if_false]
  by_cases oui : s.buf.read (pie + 2) 3 = wmmOui.take 3
  · by_cases type : s.buf.read (pie + 2) 4 = wmmOui.take 4
    · by_cases wmm : s.buf.read (pie + 2) 6 = wmmOui
      · simp only [oui, type, wmm, not_true_eq_false, if_false, if_true, Option.bind_eq_bind,
          then_isSome, look_isSome, Option.bind_eq_some_iff]
        refine ⟨by simp; omega, ?_⟩
        rintro ret ⟨-, -, -, -, -, -, ⟨⟩⟩
        simp
      · simp only [oui, type, wmm, not_true_eq_false, not_false_eq_true, if_false, if_true,
          Option.bind_eq_bind, then_isSome, look_isSome, Option.bind_eq_some_iff]
        refine ⟨by simp; omega, ?_⟩
        rintro ret ⟨-, -, -, -, -, -, ⟨⟩⟩
        simp
    · have other : s.buf.read (pie + 2) 6 ≠ wmmOui := fun wmm => type (shorter 4 (by omega) wmm)
      simp only [oui, type, other, not_true_eq_false, not_false_eq_true, if_false, if_true,
        Option.bind_eq_bind, then_isSome, look_isSome, Option.bind_eq_some_iff]
      refine ⟨by simp; omega, ?_⟩
      rintro ret ⟨-, -, -, -, ⟨⟩⟩
      simp
  · have type : s.buf.read (pie + 2) 4 ≠ wmmOui.take 4 := fun four => oui (three four)
    have other : s.buf.read (pie + 2) 6 ≠ wmmOui := fun wmm => oui (shorter 3 (by omega) wmm)
    simp only [oui, type, other, not_false_eq_true, if_true, if_false, Option.bind_eq_bind,
      then_isSome, look_isSome, Option.bind_eq_some_iff]
    refine ⟨by simp, ?_⟩
    rintro ret ⟨-, -, ⟨⟩⟩
    simp

/-- The five places that are adjusted are written. -/
theorem wmmElement_clean : ¬ Clean (wmmElement len s pie) := by
  rintro ⟨after, done, none⟩
  obtain ⟨pwmm, -, same⟩ := Option.bind_eq_some_iff.mp done
  cases same
  simp [wmmPlaces] at none

theorem wfP2pParseP2pie_clean (none : s.written = []) (eid : s.buf pie = eidVendorSpecific) :
    Clean (wfP2pParseP2pie len s pie) ↔ P2pFits s.buf len pie := by
  have byte := ieSize_lt s.buf pie
  have kept : Clean (keepP2pIe len s pie) ↔ pie + 2 + ieSize s.buf pie ≤ len := by
    refine (clean_bind_first fun _ => by simp [none]).trans ?_
    rw [copy_isSome]
    omega
  have valid : wfP2pIeValid len s pie = (look len pie 2 4).bind fun _ =>
      if s.buf.read (pie + 2) 4 ≠ p2pOui then some (-3) else some 0 := by
    rw [wfP2pIeValid, if_neg (not_not.mpr eid)]
    rfl
  rw [wfP2pParseP2pie, valid, Option.bind_eq_bind, Option.bind_assoc]
  by_cases oui : s.buf.read (pie + 2) 4 = p2pOui
  · simp only [oui, ne_eq, not_true_eq_false, if_false, Option.bind_some]
    refine (clean_bind fun _ => kept).trans ?_
    rw [look_isSome]
    exact ⟨fun fits => ⟨by omega, fun _ => fits.2⟩, fun fits => ⟨fits.looked, fits.stored oui⟩⟩
  · simp only [oui, ne_eq, not_false_eq_true, if_true, Option.bind_some]
    refine (clean_bind_first fun _ => by simp [none]).trans ?_
    rw [look_isSome]
    exact ⟨fun fits => ⟨by omega, fun same => absurd same oui⟩, fun fits => fits.looked⟩

theorem wfP2pParseP2pie_kept : KeptBy s (wfP2pParseP2pie len s pie) :=
  keptBy_bind fun _ => keptBy_ite (keptBy_self s)
    (keptBy_bind fun _ => keptBy_some ⟨rfl, rfl, rfl, rfl, rfl⟩)

theorem otherVendor_clean (none : s.written = []) (eid : s.buf pie = eidVendorSpecific) :
    Clean (otherVendor side len s pie) ↔
      pie + wmmLooked s.buf pie ≤ len ∧ s.buf.read (pie + 2) 6 ≠ wmmOui ∧
        (side.p2pValid = true → P2pFits s.buf len pie) := by
  obtain ⟨looked, taken⟩ := @wmmParse_spec len s pie eid
  rw [otherVendor, ← looked]
  cases parsed : wf80211MgmtWmmParseAt len s pie with
  | none => simp
  | some ret =>
      have wmm := taken ret parsed
      simp only [Option.bind_eq_bind, Option.bind_some, Option.isSome_some, true_and]
      split_ifs with zero valid
      · simp [wmmElement_clean, wmm.mp zero]
      · simp [wfP2pParseP2pie_clean none eid, mt wmm.mpr zero, valid]
      · simp [none, mt wmm.mpr zero, valid]

theorem otherVendor_kept : KeptBy s (otherVendor side len s pie) := by
  apply keptBy_bind
  intro ret
  apply keptBy_ite
  · intro after done clean
    exact absurd ⟨after, done, clean⟩ wmmElement_clean
  · exact keptBy_ite wfP2pParseP2pie_kept (keptBy_self s)

/-- Of an element that is not one of a vendor nothing more is looked at. -/
theorem otherVendor_other (other : s.buf pie ≠ eidVendorSpecific) :
    otherVendor side len s pie = some s := by
  simp [otherVendor, wf80211MgmtWmmParseAt, wfP2pParseP2pie, wfP2pIeValid, other]

theorem vendorElement_eq : vendorElement side len s pie =
    (parseReads len pie (wpaParsed s.buf pie)).bind fun _ =>
      let sec := { s.net.sec with wpa := ((wpaParsed s.buf pie).onto s.net.sec.wpa).2 }
      if (wpaParsed s.buf pie).ret = 0 then some (setSec s (sec.found 1))
      else otherVendor side len (setSec s sec) pie := rfl

theorem vendorElement_clean (none : s.written = []) (eid : s.buf pie = eidVendorSpecific) :
    Clean (vendorElement side len s pie) ↔ VendorFits side s.buf len pie := by
  have reads : (parseReads len pie (wpaParsed s.buf pie)).isSome ↔
      suitesEnd s.buf pie wpaFormat ≤ len := parseReads_isSome eid
  rw [vendorElement_eq]
  by_cases taken : (wpaParsed s.buf pie).ret = 0
  · simp only [taken, if_true]
    refine (clean_bind_first fun _ => by simp [setSec, none]).trans (reads.trans ?_)
    constructor
    · intro fits
      exact ⟨fits, absurd taken, absurd taken, absurd taken⟩
    · exact fun fits => fits.suites
  · simp only [taken, if_false]
    have behind (sec : SecInfo) : Clean (otherVendor side len (setSec s sec) pie) ↔
        pie + wmmLooked s.buf pie ≤ len ∧ s.buf.read (pie + 2) 6 ≠ wmmOui ∧
          (side.p2pValid = true → P2pFits s.buf len pie) := otherVendor_clean none eid
    refine (clean_bind fun _ => behind _).trans ?_
    rw [reads]
    constructor
    · rintro ⟨fits, looked, other, p2p⟩
      exact ⟨fits, fun _ => looked, fun _ => other, fun _ => p2p⟩
    · intro fits
      exact ⟨fits.suites, fits.looked taken, fits.other taken, fits.p2p taken⟩

/-- An element for RSN that is not taken comes here too. -/
theorem vendorElement_other (none : s.written = []) (other : s.buf pie ≠ eidVendorSpecific)
    (header : pie + 2 ≤ len) : Clean (vendorElement side len s pie) := by
  obtain ⟨missed, reads⟩ := wpaParsed_other other header
  rw [vendorElement_eq]
  simp only [missed, if_false]
  have behind (sec : SecInfo) : otherVendor side len (setSec s sec) pie = some (setSec s sec) :=
    otherVendor_other other
  refine clean_bind_of reads fun _ => ?_
  rw [behind]
  exact clean_some.mpr none

theorem keptBy_setSec {sec : SecInfo} {step : Option State} (kept : KeptBy (setSec s sec) step) :
    KeptBy s step := by
  intro after done clean
  obtain ⟨buf, written, rate, ies, iesLength⟩ := kept after done clean
  exact ⟨buf, written, rate, ies, iesLength⟩

theorem vendorElement_kept : KeptBy s (vendorElement side len s pie) :=
  keptBy_bind fun _ => keptBy_ite (keptBy_some ⟨rfl, rfl, rfl, rfl, rfl⟩)
    (keptBy_setSec otherVendor_kept)

theorem rsnElement_clean (none : s.written = []) (eid : s.buf pie = eidRsn)
    (header : pie + 2 ≤ len) :
    Clean (rsnElement side len s pie) ↔ suitesEnd s.buf pie rsnFormat ≤ len := by
  have other : s.buf pie ≠ eidVendorSpecific := by
    rw [eid]
    decide
  have reads := @parseReads_isSome len pie s.buf rsnFormat eid
  refine (clean_bind_first fun _ => ?_).trans reads
  dsimp only
  split_ifs
  · exact clean_some.mpr none
  · exact vendorElement_other none other header

theorem rsnElement_kept : KeptBy s (rsnElement side len s pie) :=
  keptBy_bind fun _ => keptBy_ite (keptBy_some ⟨rfl, rfl, rfl, rfl, rfl⟩)
    (keptBy_setSec vendorElement_kept)

end Suites

end SetBeacon

end Smartchip.Ap
