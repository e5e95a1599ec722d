import Smartchip.Ap.Association
import Smartchip.Frame.Elements

/-!
# Who may associate

The thread refuses an association request for what is wrong in one of its elements.  It does
not ask for an element that is not there, and it takes the ciphers that an element leaves out
from what its local variables hold.
-/

namespace Smartchip.Ap

open Smartchip.Foundation Smartchip.Frame

/-! ## Loops that may fail -/

section Fold

variable {α β ε : Type} {step : β → α → Except ε β}

theorem foldlM_ok_mem {xs : List α} {start last : β} (done : xs.foldlM step start = .ok last)
    {x : α} (member : x ∈ xs) : ∃ before after, step before x = .ok after := by
  induction xs generalizing start with
  | nil => cases member
  | cons first xs ih =>
      rw [List.foldlM_cons] at done
      cases moved : step start first with
      | error e => simp [moved, bind, Except.bind] at done
      | ok next =>
          rcases List.mem_cons.mp member with same | later
          · exact ⟨start, next, same ▸ moved⟩
          · exact ih (by simpa [moved, bind, Except.bind] using done) later

theorem foldlM_error_split {xs : List α} {start : β} {e : ε} :
    xs.foldlM step start = .error e ↔ ∃ before x after s, xs = before ++ x :: after ∧
      before.foldlM step start = .ok s ∧ step s x = .error e := by
  constructor
  · intro failed
    induction xs generalizing start with
    | nil => cases failed
    | cons first xs ih =>
        rw [List.foldlM_cons] at failed
        cases moved : step start first with
        | error other =>
            simp only [moved, bind, Except.bind, Except.error.injEq] at failed
            exact ⟨[], first, xs, start, rfl, rfl, failed ▸ moved⟩
        | ok next =>
            obtain ⟨before, x, after, s, split, passed, refused⟩ :=
              ih (by simpa [moved, bind, Except.bind] using failed)
            refine ⟨first :: before, x, after, s, by rw [split]; rfl, ?_, refused⟩
            rw [List.foldlM_cons, moved]
            exact passed
  · rintro ⟨before, x, after, s, rfl, passed, refused⟩
    rw [List.foldlM_append, passed]
    change (x :: after).foldlM step s = .error e
    rw [List.foldlM_cons, refused]
    rfl

end Fold

/-! ## The elements of a frame -/

/-- The elements that are complete in the bytes. -/
def wholeIes : List UInt8 → List MgmtIe
  | e :: len :: rest =>
      if rest.length < len.toNat then []
      else ⟨e, rest.take len.toNat⟩ :: wholeIes (rest.drop len.toNat)
  | _ => []
  termination_by bytes => bytes.length
  decreasing_by exact length_drop_lt e len rest

/-- Where the loop finds its elements. -/
def visits (mem : Mem) (pvar : Nat) (varLen : UInt16) : Nat → UInt16 → Option (List Nat)
  | 0, _ => none
  | fuel + 1, ofs =>
      if ofs < varLen then
        let pie := pvar + ofs.toNat
        (visits mem pvar varLen fuel (ofs + (2 + (mem (pie + 1)).toUInt16))).map (pie :: ·)
      else some []

def visitIe (net : ApNetwork) (sec : AssocSec) (mem : Mem) (s : AssocLoop) (pie : Nat) :
    Except UInt16 AssocLoop :=
  assocElement net sec (readIe mem pie) (mem.read (pie + 2) 6) s

section Visits

variable {net : ApNetwork} {sec : AssocSec} {mem : Mem} {pvar : Nat} {varLen : UInt16}

theorem assocElements_eq {fuel : Nat} {ofs : UInt16} {pies : List Nat}
    (found : visits mem pvar varLen fuel ofs = some pies) (s : AssocLoop) :
    assocElements net sec mem pvar varLen fuel ofs s =
      some (pies.foldlM (visitIe net sec mem) s) := by
  induction fuel generalizing ofs pies s with
  | zero => cases found
  | succ fuel ih =>
      simp only [visits] at found
      simp only [assocElements]
      split_ifs at found ⊢ with inside
      · obtain ⟨rest, later, rfl⟩ := Option.map_eq_some_iff.mp found
        rw [List.foldlM_cons, visitIe]
        cases assocElement net sec (readIe mem (pvar + ofs.toNat))
            (mem.read (pvar + ofs.toNat + 2) 6) s with
        | error status => rfl
        | ok next => exact ih later next
      · cases found
        rfl

/-- The loop comes to the complete elements first.  Only one more can be left, which begins
in the frame. -/
theorem visits_wholeIes {n fuel : Nat} {ofs : UInt16} (enough : n < fuel)
    (small : varLen.toNat + 257 < 65536) (left : ofs.toNat + n = varLen.toNat) :
    ∃ pies, visits mem pvar varLen fuel ofs = some pies ∧
      ∃ tail, pies.map (readIe mem) = wholeIes (mem.read (pvar + ofs.toNat) n) ++ tail := by
  induction n using Nat.strongRecOn generalizing ofs fuel with
  | ind n ih =>
      obtain ⟨fuel, rfl⟩ : ∃ k, fuel = k + 1 := ⟨fuel - 1, by omega⟩
      simp only [visits]
      set pie := pvar + ofs.toNat with hpie
      have next : (ofs + (2 + (mem (pie + 1)).toUInt16)).toNat =
          ofs.toNat + (2 + (mem (pie + 1)).toNat) := by
        have bound := (mem (pie + 1)).toNat_lt
        exact ieStep_toNat (by omega)
      have behind : ∀ (k : UInt16), varLen.toNat ≤ k.toNat →
          0 < fuel → visits mem pvar varLen fuel k = some [] := by
        intro k past some
        obtain ⟨more, rfl⟩ : ∃ j, fuel = j + 1 := ⟨fuel - 1, by omega⟩
        have outside : ¬ k < varLen := by
          rw [UInt16.lt_iff_toNat_lt]
          omega
        simp only [visits, if_neg outside]
      obtain _ | _ | n := n
      · have outside : ¬ ofs < varLen := by
          rw [UInt16.lt_iff_toNat_lt]
          omega
        refine ⟨[], if_neg outside, [], ?_⟩
        rw [Mem.read_zero, wholeIes]
        · rfl
        · nofun
      · have inside : ofs < varLen := by
          rw [UInt16.lt_iff_toNat_lt]
          omega
        rw [if_pos inside, behind _ (by omega) (by omega)]
        refine ⟨[pie], rfl, [readIe mem pie], ?_⟩
        rw [wholeIes]
        · rfl
        · intro e len rest same
          cases congrArg List.length same
      · have inside : ofs < varLen := by
          rw [UInt16.lt_iff_toNat_lt]
          omega
        rw [if_pos inside, read_two, wholeIes, Mem.length_read]
        split_ifs with short
        · rw [behind _ (by omega) (by omega)]
          exact ⟨[pie], rfl, [readIe mem pie], rfl⟩
        · obtain ⟨pies, found, tail, same⟩ :=
            ih (n - (mem (pie + 1)).toNat) (by omega)
              (show n - (mem (pie + 1)).toNat < fuel by omega)
              (show (ofs + (2 + (mem (pie + 1)).toUInt16)).toNat +
                (n - (mem (pie + 1)).toNat) = varLen.toNat by omega)
          rw [found]
          refine ⟨pie :: pies, rfl, tail, ?_⟩
          rw [List.map_cons, same, Mem.drop_read, Mem.take_read _ _ (by omega), next,
            show pvar + (ofs.toNat + (2 + (mem (pie + 1)).toNat)) =
              pie + 2 + (mem (pie + 1)).toNat by omega]
          rfl

end Visits

/-! ## What a request has to contain -/

/-- The group cipher and the pairwise ciphers, if both are in the element. -/
def suitesOf (suite : UInt32 → UInt32) : List UInt8 → Option Ciphers
  | g0 :: g1 :: g2 :: g3 :: low :: high :: list =>
      let cnt := (ofLe16 low high).toNat
      if 0 < cnt ∧ cnt * 4 ≤ list.length then
        some ⟨suite (be32 g0 g1 g2 g3), pairwiseSuites suite cnt list⟩
      else none
  | _ => none

/-- The ciphers of an RSN element. -/
def rsnCiphers (ie : MgmtIe) : Option Ciphers :=
  if ie.elementId = eidRsn ∧ ie.data.take 2 = [1, 0] then
    suitesOf rsneCipherSuiteParse (ie.data.drop 2)
  else none

/-- The ciphers of a WPA element. -/
def wpaCiphers (ie : MgmtIe) : Option Ciphers :=
  if ie.elementId = eidVendorSpecific ∧ ie.data.take 6 = [0x00, 0x50, 0xf2, 1, 1, 0] then
    suitesOf getWpaCipherSuite (ie.data.drop 6)
  else none

def Ciphers.Fit (c : Ciphers) (group pairwise : UInt32) : Prop :=
  c.group = group ∧ c.pairwise &&& pairwise ≠ 0

structure HasPolicy (net : ApNetwork) (sec : AssocSec) (ies : List MgmtIe) : Prop where
  ssid : ∃ ie ∈ ies, ie.elementId = eidSsid ∧ ie.data = net.ssid
  ciphers : ∃ ie ∈ ies, ∃ c,
    rsnCiphers ie = some c ∧ c.Fit sec.rsnGroupCipher sec.rsnPairwiseCipher ∨
      wpaCiphers ie = some c ∧ c.Fit sec.wpaMulticastCipher sec.wpaUnicastCipher

/-- There are an SSID and an element with ciphers, whatever is in them. -/
structure NamesPolicy (ies : List MgmtIe) : Prop where
  ssid : ∃ ie ∈ ies, ie.elementId = eidSsid
  ciphers : ∃ ie ∈ ies, ∃ c, rsnCiphers ie = some c ∨ wpaCiphers ie = some c

/-- A failure is answered, if anything, and the station is not reported. -/
structure TurnedDown (out : AssocOut) : Prop where
  ret : out.ret = .exited
  reported : out.reported = false
  reply : ∀ r ∈ out.reply, r.statusCode ≠ statusSuccess

/-- A frame that has the fixed part of its type and is not longer than the rx path takes. -/
structure AssocRequest where
  frame : List UInt8
  fixed : variableOfs (le16At frame 0 &&& 0xfc) ≤ frame.length
  size : frame.length ≤ ApMsgTag.assocReqFrame.sizeMax

def AssocRequest.type (req : AssocRequest) : UInt16 := le16At req.frame 0 &&& 0xfc

/-- The elements of a request. -/
def AssocRequest.ies (req : AssocRequest) : List MgmtIe :=
  wholeIes (req.frame.drop (variableOfs req.type))

/-- The message that the request is loaded in. -/
def AssocRequest.msg (req : AssocRequest) (stale : Mem) : ApMsg :=
  fillMsg stale .assocReqFrame req.frame

/-- Where the loop finds the elements of a request. -/
def AssocRequest.visits (req : AssocRequest) (stale : Mem) : Option (List Nat) :=
  Ap.visits (req.msg stale).mgmt (variableOfs req.type)
    (UInt16.ofNat (req.frame.length - variableOfs req.type))
    (req.frame.length - variableOfs req.type + 1) 0

/-- The thread comes to an element that it refuses, behind others that it does not. -/
def RefusesOne (net : ApNetwork) (sec : AssocSec) (info : AssocInfo) (req : AssocRequest)
    (stale : Mem) (a : AssocAnswers) : Prop :=
  ∃ pies, req.visits stale = some pies ∧
    ∃ before pie after s status, pies = before ++ pie :: after ∧
      before.foldlM (visitIe net sec (req.msg stale).mgmt)
        ⟨clearInfo info, a.rsn, a.wpa⟩ = .ok s ∧
      visitIe net sec (req.msg stale).mgmt s pie = .error status

/-! ## Elements that are not refused -/

section Accepted

variable {net : ApNetwork} {sec : AssocSec} {ie : MgmtIe} {behind : List UInt8}
  {s next : AssocLoop} {c old : Ciphers} {status : UInt16}

theorem parseSuites_of_suitesOf {suite : UInt32 → UInt32} {rest : List UInt8}
    (lists : suitesOf suite rest = some c) : parseSuites suite old rest = (0, c) := by
  unfold suitesOf at lists
  split at lists
  · rename_i g0 g1 g2 g3 low high list
    dsimp only at lists
    split_ifs at lists with enough
    cases lists
    have fits : ¬ ((ofLe16 low high).toNat = 0 ∨
        list.length < (ofLe16 low high).toNat * 4) := by omega
    simp [parseSuites, fits]
  · cases lists

theorem two_bytes {data : List UInt8} {low high : UInt8} (starts : data.take 2 = [low, high]) :
    data = low :: high :: data.drop 2 := by
  conv_lhs => rw [← List.take_append_drop 2 data, starts]
  rfl

/-- A whole element is read, or refused because its length wraps around. -/
theorem rsnParse_of_ciphers (old : Ciphers) (lists : rsnCiphers ie = some c) (len : UInt16) :
    (wf80211MgmtRsnParse ie len old).1 = -1 ∨ (wf80211MgmtRsnParse ie len old).1 = -2 ∨
      wf80211MgmtRsnParse ie len old = (0, c) := by
  unfold rsnCiphers at lists
  split_ifs at lists with starts
  unfold wf80211MgmtRsnParse
  split_ifs with zero long
  · exact .inl rfl
  · rw [two_bytes starts.2]
    have one : ofLe16 1 0 = 1 := by decide
    simp only [one, ne_eq, not_true_eq_false, if_false]
    exact .inr (.inr (parseSuites_of_suitesOf lists))
  · exact .inr (.inl rfl)

theorem wpaParse_of_ciphers (old : Ciphers) (lists : wpaCiphers ie = some c) (len : UInt16) :
    (wf80211MgmtWpaParse ie len old).1 = -1 ∨ (wf80211MgmtWpaParse ie len old).1 = -2 ∨
      wf80211MgmtWpaParse ie len old = (0, c) := by
  unfold wpaCiphers at lists
  split_ifs at lists with starts
  unfold wf80211MgmtWpaParse
  split_ifs with zero long
  · exact .inl rfl
  · have split : ie.data = 0x00 :: 0x50 :: 0xf2 :: 1 :: 1 :: 0 :: ie.data.drop 6 := by
      conv_lhs => rw [← List.take_append_drop 6 ie.data, starts.2]
      rfl
    rw [split]
    have oui : be32 0x00 0x50 0xf2 1 = ouiMicrosoft <<< 8 ||| 1 := by decide
    have one : ofLe16 1 0 = 1 := by decide
    simp only [oui, one, ne_eq, not_true_eq_false, if_false]
    exact .inr (.inr (parseSuites_of_suitesOf lists))
  · exact .inr (.inl rfl)

theorem checkCiphers_ok {group pairwise both : UInt32}
    (checked : checkCiphers c group pairwise = .ok both) : c.Fit group pairwise := by
  unfold checkCiphers at checked
  split_ifs at checked with differ none
  exact ⟨not_not.mp differ, none⟩

theorem rsnElement_ok (passed : rsnElement sec ie s = .ok next)
    (lists : rsnCiphers ie = some c) :
    c.Fit sec.rsnGroupCipher sec.rsnPairwiseCipher := by
  unfold rsnElement at passed
  have read := rsnParse_of_ciphers s.rsn lists (wpaIeLen ie)
  generalize wf80211MgmtRsnParse ie (wpaIeLen ie) s.rsn = parsed at passed read
  obtain ⟨ret, rsn⟩ := parsed
  rcases read with corrupt | corrupt | whole
  · cases corrupt
    simp at passed
  · cases corrupt
    simp at passed
  · cases whole
    dsimp only at passed
    cases checked : checkCiphers c sec.rsnGroupCipher sec.rsnPairwiseCipher with
    | error status => simp [checked] at passed
    | ok both => exact checkCiphers_ok checked

theorem wpaElement_ok (passed : wpaElement sec ie s = .ok next)
    (lists : wpaCiphers ie = some c) :
    c.Fit sec.wpaMulticastCipher sec.wpaUnicastCipher := by
  unfold wpaElement at passed
  have read := wpaParse_of_ciphers s.wpa lists (wpaIeLen ie)
  generalize wf80211MgmtWpaParse ie (wpaIeLen ie) s.wpa = parsed at passed read
  obtain ⟨ret, wpa⟩ := parsed
  rcases read with corrupt | corrupt | whole
  · cases corrupt
    simp at passed
  · cases corrupt
    simp at passed
  · cases whole
    dsimp only at passed
    cases checked : checkCiphers c sec.wpaMulticastCipher sec.wpaUnicastCipher with
    | error status => simp [checked] at passed
    | ok both => exact checkCiphers_ok checked

/-- What an element names is right if the element is passed. -/
theorem assocElement_ok (passed : assocElement net sec ie behind s = .ok next) :
    (ie.elementId = eidSsid → ie.data = net.ssid) ∧
      (∀ c, rsnCiphers ie = some c → c.Fit sec.rsnGroupCipher sec.rsnPairwiseCipher) ∧
      (∀ c, wpaCiphers ie = some c → c.Fit sec.wpaMulticastCipher sec.wpaUnicastCipher) := by
  refine ⟨fun isSsid => ?_, fun c lists => ?_, fun c lists => ?_⟩
  · simp only [assocElement, isSsid, if_true] at passed
    split_ifs at passed with same
    exact same
  · have isRsn : ie.elementId = eidRsn := by
      unfold rsnCiphers at lists
      split_ifs at lists with starts
      exact starts.1
    have element : assocElement net sec ie behind s = rsnElement sec ie s := by
      simp [assocElement, isRsn, eidRsn, eidSsid, eidSuppRates, eidExtSuppRates]
    rw [element] at passed
    exact rsnElement_ok passed lists
  · have isVendor : ie.elementId = eidVendorSpecific := by
      unfold wpaCiphers at lists
      split_ifs at lists with starts
      exact starts.1
    have element : assocElement net sec ie behind s = vendorElement sec ie behind s := by
      simp [assocElement, isVendor, eidVendorSpecific, eidRsn, eidSsid, eidSuppRates,
        eidExtSuppRates]
    rw [element] at passed
    unfold vendorElement at passed
    cases wpa : wpaElement sec ie s with
    | error status => simp [wpa] at passed
    | ok after => exact wpaElement_ok wpa lists

end Accepted

/-! ## Elements that are refused -/

section Refused

variable {net : ApNetwork} {sec : AssocSec} {ie : MgmtIe} {behind : List UInt8}
  {s : AssocLoop} {c : Ciphers} {status : UInt16}

theorem addRate_error {limit len : Nat} {rate : List UInt8} {byte : UInt8}
    (refused : addRate limit rate len byte = .error status) : status ≠ statusSuccess := by
  unfold addRate at refused
  split_ifs at refused
  cases refused
  decide

theorem ratesElement_error {limit len : Nat} {tooLong : UInt16} {rate data : List UInt8}
    (bad : tooLong ≠ statusSuccess)
    (refused : ratesElement limit tooLong rate data len = .error status) :
    status ≠ statusSuccess := by
  unfold ratesElement at refused
  split_ifs at refused
  · cases refused
    exact bad
  · cases added : data.foldlM (addRate limit rate) len with
    | error other =>
        rw [added] at refused
        cases refused
        obtain ⟨_, _, _, _, _, _, one⟩ := foldlM_error_split.mp added
        exact addRate_error one
    | ok count =>
        rw [added] at refused
        dsimp only at refused
        split_ifs at refused
        cases refused
        decide

theorem checkCiphers_error {group pairwise : UInt32}
    (refused : checkCiphers c group pairwise = .error status) : status ≠ statusSuccess := by
  unfold checkCiphers at refused
  split_ifs at refused
  · cases refused
    decide
  · cases refused
    decide

theorem rsnElement_error (refused : rsnElement sec ie s = .error status) :
    status ≠ statusSuccess := by
  unfold rsnElement at refused
  split at refused
  · split at refused
    · rename_i checked
      cases refused
      exact checkCiphers_error checked
    · cases refused
  · cases refused
    decide

theorem wpaElement_error (refused : wpaElement sec ie s = .error status) :
    status ≠ statusSuccess := by
  unfold wpaElement at refused
  split at refused
  · split at refused
    · rename_i checked
      cases refused
      exact checkCiphers_error checked
    · cases refused
  · split_ifs at refused
    cases refused
    decide

theorem vendorElement_error (refused : vendorElement sec ie behind s = .error status) :
    status ≠ statusSuccess := by
  unfold vendorElement at refused
  split at refused
  · rename_i wpa
    cases refused
    exact wpaElement_error wpa
  · unfold wmmElement at refused
    dsimp only at refused
    split_ifs at refused
    cases refused
    decide

theorem assocElement_error (refused : assocElement net sec ie behind s = .error status) :
    status ≠ statusSuccess := by
  unfold assocElement at refused
  split_ifs at refused
  · cases refused
    decide
  · split at refused
    · rename_i rates
      cases refused
      exact ratesElement_error (by decide) rates
    · cases refused
  · split at refused
    · rename_i rates
      cases refused
      exact ratesElement_error (by decide) rates
    · cases refused
  · exact rsnElement_error refused
  · exact vendorElement_error refused
  · cases refused
    decide
  · cases refused
    decide

end Refused

/-! ## The thread -/

section Thread

variable {net : ApNetwork} {sec : AssocSec} {aid : UInt32} {state : WdnState}
  {info : AssocInfo} {req : AssocRequest} {stale : Mem} {a : AssocAnswers}

theorem type_msg : wf80211GetFrameType (req.msg stale).mgmt = req.type := by
  have fixed := req.fixed
  have header : (stale.write 0 req.frame).readLe16 (0 + 0) = le16At req.frame 0 := by
    refine Mem.readLe16_write_getD ?_
    unfold variableOfs at fixed
    split_ifs at fixed <;> omega
  unfold wf80211GetFrameType AssocRequest.type AssocRequest.msg fillMsg
  rw [← header]

theorem toNat_varLen (req : AssocRequest) :
    (UInt16.ofNat (req.frame.length - variableOfs req.type)).toNat =
      req.frame.length - variableOfs req.type := by
  have size : req.frame.length ≤ 796 := req.size
  apply UInt16.toNat_ofNat_of_lt'
  change _ < 65536
  omega

theorem varLen_msg :
    (req.msg stale).len - UInt16.ofNat (variableOfs req.type) =
      UInt16.ofNat (req.frame.length - variableOfs req.type) := by
  have fixed : variableOfs req.type ≤ req.frame.length := req.fixed
  have size : req.frame.length ≤ 796 := req.size
  have len : (UInt16.ofNat req.frame.length).toNat = req.frame.length :=
    UInt16.toNat_ofNat_of_lt' (by change _ < 65536; omega)
  have ofs : (UInt16.ofNat (variableOfs req.type)).toNat = variableOfs req.type :=
    UInt16.toNat_ofNat_of_lt' (by change _ < 65536; omega)
  apply UInt16.toNat_inj.mp
  change (UInt16.ofNat req.frame.length - UInt16.ofNat (variableOfs req.type)).toNat = _
  rw [UInt16.toNat_sub_of_le _ _ (by rw [UInt16.le_iff_toNat_le, ofs, len]; exact fixed),
    toNat_varLen, len, ofs]

/-- The elements in the message are those of the frame, and at most one more. -/
theorem visits_msg (req : AssocRequest) (stale : Mem) :
    ∃ pies, req.visits stale = some pies ∧
      ∃ tail, pies.map (readIe (req.msg stale).mgmt) = req.ies ++ tail := by
  have fixed : variableOfs req.type ≤ req.frame.length := req.fixed
  have size : req.frame.length ≤ 796 := req.size
  have len := toNat_varLen req
  have zero : (0 : UInt16).toNat = 0 := rfl
  obtain ⟨pies, found, tail, same⟩ : ∃ pies, req.visits stale = some pies ∧
      ∃ tail, pies.map (readIe (req.msg stale).mgmt) =
        wholeIes ((req.msg stale).mgmt.read (variableOfs req.type + (0 : UInt16).toNat)
          (req.frame.length - variableOfs req.type)) ++ tail :=
    visits_wholeIes (Nat.lt_succ_self _) (by omega) (by omega)
  refine ⟨pies, found, tail, ?_⟩
  have body : (req.msg stale).mgmt.read (variableOfs req.type)
      (req.frame.length - variableOfs req.type) = req.frame.drop (variableOfs req.type) := by
    have part : (stale.write 0 req.frame).read (0 + variableOfs req.type)
        (req.frame.length - variableOfs req.type) =
          (req.frame.drop (variableOfs req.type)).take
            (req.frame.length - variableOfs req.type) :=
      Mem.read_write_inside stale (by omega)
    rw [Nat.zero_add] at part
    refine part.trans (List.take_of_length_le ?_)
    rw [List.length_drop]
  rw [same, zero, Nat.add_zero, body]
  rfl

/-- The thread does what the fold over the elements says. -/
theorem wfAssocApThrd_eq {pies : List Nat} (found : req.visits stale = some pies) :
    wfAssocApThrd net sec aid state info (some (req.msg stale)) a =
      match pies.foldlM (visitIe net sec (req.msg stale).mgmt)
        ⟨clearInfo info, a.rsn, a.wpa⟩ with
      | .error status =>
          ⟨.assoc, info, true, assocApXmitFrame a aid req.type status, false, false, .exited⟩
      | .ok s =>
          ⟨.assoc, s.info, true, assocApXmitFrame a aid req.type statusSuccess, false,
            aid ≤ 2007, .ended⟩ := by
  have tag : ¬ (req.msg stale).tag ≠ .assocReqFrame := fun other => other rfl
  simp only [wfAssocApThrd, if_neg tag, recvAssocReq, type_msg, varLen_msg, toNat_varLen]
  rw [assocElements_eq found]
  cases pies.foldlM (visitIe net sec (req.msg stale).mgmt) ⟨clearInfo info, a.rsn, a.wpa⟩ with
  | error status => rfl
  | ok s => rfl

theorem assocApXmitFrame_status {type status : UInt16} {r : AssocReply}
    (sends : r ∈ assocApXmitFrame a aid type status) : r.statusCode = status := by
  unfold assocApXmitFrame at sends
  split_ifs at sends <;> cases sends <;> rfl

/-- A request without a refused element has the policy if it names one. -/
theorem hasPolicy_iff {pies : List Nat} {tail : List MgmtIe} {start last : AssocLoop}
    (same : pies.map (readIe (req.msg stale).mgmt) = req.ies ++ tail)
    (passed : pies.foldlM (visitIe net sec (req.msg stale).mgmt) start = .ok last) :
    HasPolicy net sec req.ies ↔ NamesPolicy req.ies := by
  have right : ∀ ie ∈ req.ies, (ie.elementId = eidSsid → ie.data = net.ssid) ∧
      (∀ c, rsnCiphers ie = some c → c.Fit sec.rsnGroupCipher sec.rsnPairwiseCipher) ∧
      (∀ c, wpaCiphers ie = some c →
        c.Fit sec.wpaMulticastCipher sec.wpaUnicastCipher) := by
    intro ie member
    have inside : ie ∈ pies.map (readIe (req.msg stale).mgmt) := by
      rw [same]
      exact List.mem_append_left _ member
    obtain ⟨pie, visited, rfl⟩ := List.mem_map.mp inside
    obtain ⟨before, after, ok⟩ := foldlM_ok_mem passed visited
    exact assocElement_ok ok
  constructor
  · rintro ⟨⟨ie, member, isSsid, -⟩, other, inside, c, ciphers⟩
    exact ⟨⟨ie, member, isSsid⟩, other, inside, c, ciphers.imp And.left And.left⟩
  · rintro ⟨⟨ie, member, isSsid⟩, other, inside, c, ciphers⟩
    refine ⟨⟨ie, member, isSsid, (right ie member).1 isSsid⟩, other, inside, c, ?_⟩
    exact ciphers.imp (fun rsn => ⟨rsn, (right other inside).2.1 c rsn⟩)
      (fun wpa => ⟨wpa, (right other inside).2.2 c wpa⟩)

/-- A request without the SSID and the ciphers of the network is turned down exactly when it
names an SSID and ciphers or has an element that is refused. -/
theorem assoc_policy_iff (net : ApNetwork) (sec : AssocSec) (aid : UInt32) (state : WdnState)
    (info : AssocInfo) (req : AssocRequest) (stale : Mem) (a : AssocAnswers) :
    (¬ HasPolicy net sec req.ies →
      TurnedDown (wfAssocApThrd net sec aid state info (some (req.msg stale)) a)) ↔
      RefusesOne net sec info req stale a ∨ NamesPolicy req.ies := by
  obtain ⟨pies, found, tail, same⟩ := visits_msg req stale
  rw [wfAssocApThrd_eq found]
  cases folded : pies.foldlM (visitIe net sec (req.msg stale).mgmt)
      ⟨clearInfo info, a.rsn, a.wpa⟩ with
  | error status =>
      obtain ⟨before, pie, after, s, split, passed, refused⟩ := foldlM_error_split.mp folded
      refine iff_of_true (fun _ => ⟨rfl, rfl, fun r sends => ?_⟩)
        (.inl ⟨pies, found, before, pie, after, s, status, split, passed, refused⟩)
      rw [assocApXmitFrame_status sends]
      exact assocElement_error refused
  | ok s =>
      have none : ¬ RefusesOne net sec info req stale a := by
        rintro ⟨others, also, before, pie, after, s, status, split, passed, refused⟩
        rw [found, Option.some.injEq] at also
        subst also
        have failed := foldlM_error_split.mpr ⟨before, pie, after, s, split, passed, refused⟩
        rw [folded] at failed
        cases failed
      rw [or_iff_right none, ← hasPolicy_iff same folded]
      constructor
      · intro turned
        by_contra lacks
        cases (turned lacks).ret
      · exact fun has lacks => absurd has lacks

end Thread

/-! ## A request without elements -/

def emptyRequest : AssocRequest where
  frame := List.replicate 28 0
  fixed := Nat.le_of_ble_eq_true rfl
  size := Nat.le_of_ble_eq_true rfl

def wpa2Network : ApNetwork := ⟨[0x61, 0x70], [0x82, 0x84, 0x8b, 0x96], false⟩

def wpa2Sec : AssocSec := ⟨cipherSuiteCcmp, cipherSuiteCcmp, 0, 0⟩

def newInfo : AssocInfo := ⟨0, 0, 0, 0, 0, false, false, false, false, []⟩

def assocCall : AssocAnswers := ⟨true, ⟨0, 0⟩, ⟨0, 0⟩⟩

/-- It is answered with success, and the station is reported. -/
theorem assoc_policy_empty :
    ¬ (¬ HasPolicy wpa2Network wpa2Sec emptyRequest.ies →
      TurnedDown (wfAssocApThrd wpa2Network wpa2Sec 1 .auth newInfo
        (some (emptyRequest.msg fun _ => 0)) assocCall)) := by
  intro kept
  have none : emptyRequest.ies = [] := by
    change wholeIes [] = []
    rw [wholeIes]
    nofun
  have lacks : ¬ HasPolicy wpa2Network wpa2Sec emptyRequest.ies := by
    rintro ⟨⟨ie, member, -⟩, -⟩
    rw [none] at member
    cases member
  have reported : (wfAssocApThrd wpa2Network wpa2Sec 1 .auth newInfo
      (some (emptyRequest.msg fun _ => 0)) assocCall).reported = true := by decide +kernel
  rw [(kept lacks).reported] at reported
  cases reported

end Smartchip.Ap
