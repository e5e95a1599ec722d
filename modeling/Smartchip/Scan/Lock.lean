import Smartchip.Scan.Queue

/-!
# The lock of the scan results

Readers share the semaphore of `wf_wlan_mgmt_scan_que_t`: the first one takes it,
the last one gives it back, and writers take it alone.
-/

namespace Smartchip.Scan

open Smartchip.Foundation

universe u

/-- The part of `wf_wlan_mgmt_scan_que_t` that its lock functions use. -/
structure ScanLock where
  readCnt : UInt8
  sema : Nat
  deriving DecidableEq

/-- `wf_wlan_mgmt_scan_que_read_try` with its result code. -/
def wlanMgmtScanQueReadTry (lock : ScanLock) : Int × ScanLock :=
  if lock.readCnt = 0xFF then (-2, lock)
  else if lock.readCnt = 0 then
    if lock.sema = 0 then (-3, lock)
    else (0, ⟨lock.readCnt + 1, lock.sema - 1⟩)
  else (0, { lock with readCnt := lock.readCnt + 1 })

def wlanMgmtScanQueReadPost (lock : ScanLock) : Int × ScanLock :=
  if lock.readCnt = 0 then (-2, lock)
  else if lock.readCnt - 1 = 0 then (0, ⟨lock.readCnt - 1, lock.sema + 1⟩)
  else (0, { lock with readCnt := lock.readCnt - 1 })

def wlanMgmtScanQueWriteTry (lock : ScanLock) : Int × ScanLock :=
  if lock.sema = 0 then (-1, lock) else (0, { lock with sema := lock.sema - 1 })

def wlanMgmtScanQueWritePost (lock : ScanLock) : Int × ScanLock :=
  (0, { lock with sema := lock.sema + 1 })

def ScanQue.lock (s : ScanQue) : ScanLock := ⟨s.readCnt, s.sema⟩

def ScanQue.setLock (s : ScanQue) (lock : ScanLock) : ScanQue :=
  { s with readCnt := lock.readCnt, sema := lock.sema }

theorem readTry_eq (s : ScanQue) :
    readTry s = s.setLock (wlanMgmtScanQueReadTry s.lock).2 := by
  unfold readTry wlanMgmtScanQueReadTry ScanQue.lock
  split_ifs <;> rfl

theorem readPost_eq (s : ScanQue) :
    readPost s = s.setLock (wlanMgmtScanQueReadPost s.lock).2 := by
  unfold readPost wlanMgmtScanQueReadPost ScanQue.lock
  split_ifs <;> rfl

/-! ## Readers and writers -/

/-- The lock and the parties inside, one entry for each section. -/
structure Parties (Party : Type u) where
  lock : ScanLock
  readers : List Party
  writers : List Party

inductive LockCall (Party : Type u) where
  | readTry (party : Party)
  | readPost (party : Party)
  | writeTry (party : Party)
  | writePost (party : Party)

section Steps

variable {Party : Type u} [DecidableEq Party]

/-- A party goes in when its try returns zero, and posts only from inside. -/
def lockStep (s : Parties Party) : LockCall Party → Option (Parties Party)
  | .readTry party =>
      let tried := wlanMgmtScanQueReadTry s.lock
      some { s with
        lock := tried.2
        readers := if tried.1 = 0 then party :: s.readers else s.readers }
  | .readPost party =>
      if party ∈ s.readers then
        some { s with
          lock := (wlanMgmtScanQueReadPost s.lock).2
          readers := s.readers.erase party }
      else some s
  | .writeTry party =>
      let tried := wlanMgmtScanQueWriteTry s.lock
      some { s with
        lock := tried.2
        writers := if tried.1 = 0 then party :: s.writers else s.writers }
  | .writePost party =>
      if party ∈ s.writers then
        some { s with
          lock := (wlanMgmtScanQueWritePost s.lock).2
          writers := s.writers.erase party }
      else some s

def lockInit : Parties Party := ⟨⟨0, 1⟩, [], []⟩

/-- The counter is the number of readers, the semaphore is taken exactly when
someone is inside, and a writer is inside alone. -/
structure Exclusive (s : Parties Party) : Prop where
  readCnt : s.lock.readCnt.toNat = s.readers.length
  binary : s.lock.sema ≤ 1
  held : s.lock.sema = 0 ↔ 0 < s.lock.readCnt ∨ s.writers ≠ []
  alone : s.writers.length ≤ 1
  apart : s.writers ≠ [] → s.readers = []

end Steps

section Kept

variable {Party : Type u} {s : Parties Party}

theorem Exclusive.readCnt_pos (exclusive : Exclusive s) :
    0 < s.lock.readCnt ↔ s.readers ≠ [] := by
  rw [UInt8.lt_iff_toNat_lt, exclusive.readCnt, UInt8.toNat_ofNat, List.length_pos_iff]

theorem Exclusive.readCnt_zero (exclusive : Exclusive s) :
    s.lock.readCnt = 0 ↔ s.readers = [] := by
  rw [← UInt8.toNat_inj, exclusive.readCnt, UInt8.toNat_ofNat, List.length_eq_zero_iff]

/-- With the semaphore free nobody is inside. -/
theorem Exclusive.empty (exclusive : Exclusive s) (free : s.lock.sema ≠ 0) :
    s.readers = [] ∧ s.writers = [] := by
  have nobody := exclusive.held.not.mp free
  rw [exclusive.readCnt_pos, not_or, not_not, not_not] at nobody
  exact nobody

theorem Exclusive.readTry (exclusive : Exclusive s) (party : Party) :
    (wlanMgmtScanQueReadTry s.lock).1 ≠ 0 ∧
        (wlanMgmtScanQueReadTry s.lock).2 = s.lock ∨
      (wlanMgmtScanQueReadTry s.lock).1 = 0 ∧
        Exclusive { s with
          lock := (wlanMgmtScanQueReadTry s.lock).2
          readers := party :: s.readers } := by
  unfold wlanMgmtScanQueReadTry
  by_cases full : s.lock.readCnt = 0xFF
  · rw [if_pos full]
    exact .inl ⟨by simp, rfl⟩
  rw [if_neg full]
  have more : (s.lock.readCnt + 1).toNat = s.readers.length + 1 := by
    have room : s.lock.readCnt.toNat ≠ 255 := by
      intro same
      exact full (UInt8.toNat_inj.mp same)
    have bound := s.lock.readCnt.toNat_lt
    rw [UInt8.toNat_add, exclusive.readCnt] at *
    simp only [UInt8.toNat_one]
    omega
  have pos : 0 < s.lock.readCnt + 1 := by
    rw [UInt8.lt_iff_toNat_lt, more]
    simp
  by_cases first : s.lock.readCnt = 0
  · rw [if_pos first]
    by_cases taken : s.lock.sema = 0
    · rw [if_pos taken]
      exact .inl ⟨by simp, rfl⟩
    · rw [if_neg taken]
      obtain ⟨-, noWriter⟩ := exclusive.empty taken
      have binary := exclusive.binary
      refine .inr ⟨rfl, more, ?_, ?_, exclusive.alone, ?_⟩
      · exact Nat.le_trans (Nat.sub_le _ _) binary
      · simp only [pos, true_or, iff_true]
        omega
      · intro writer
        exact absurd noWriter writer
  · rw [if_neg first]
    have reading := exclusive.readCnt_zero.not.mp first
    have noWriter : s.writers = [] := by
      by_contra writer
      exact reading (exclusive.apart writer)
    have taken : s.lock.sema = 0 := exclusive.held.mpr (.inl (exclusive.readCnt_pos.mpr reading))
    refine .inr ⟨rfl, more, exclusive.binary, ?_, exclusive.alone, ?_⟩
    · simp [pos, taken]
    · intro writer
      exact absurd noWriter writer

theorem Exclusive.readPost [DecidableEq Party] (exclusive : Exclusive s) {party : Party}
    (inside : party ∈ s.readers) :
    Exclusive { s with
      lock := (wlanMgmtScanQueReadPost s.lock).2
      readers := s.readers.erase party } := by
  have reading : s.readers ≠ [] := List.ne_nil_of_mem inside
  have counted := exclusive.readCnt
  have some : s.lock.readCnt ≠ 0 := exclusive.readCnt_zero.not.mpr reading
  have noWriter : s.writers = [] := by
    by_contra writer
    exact reading (exclusive.apart writer)
  have taken : s.lock.sema = 0 :=
    exclusive.held.mpr (.inl (exclusive.readCnt_pos.mpr reading))
  have fewer : (s.lock.readCnt - 1).toNat = (s.readers.erase party).length := by
    have one : (1 : UInt8) ≤ s.lock.readCnt := by
      rw [UInt8.le_iff_toNat_le, UInt8.toNat_one, counted]
      exact List.length_pos_iff.mpr reading
    rw [UInt8.toNat_sub_of_le _ _ one, UInt8.toNat_one, List.length_erase_of_mem inside, counted]
  unfold wlanMgmtScanQueReadPost
  rw [if_neg some]
  by_cases last : s.lock.readCnt - 1 = 0
  · rw [if_pos last]
    refine ⟨fewer, ?_, ?_, exclusive.alone, ?_⟩
    · simp [taken]
    · simp [noWriter, last]
    · intro writer
      exact absurd noWriter writer
  · rw [if_neg last]
    refine ⟨fewer, exclusive.binary, ?_, exclusive.alone, ?_⟩
    · have pos : 0 < s.lock.readCnt - 1 := UInt8.pos_iff_ne_zero.mpr last
      simp [taken, pos]
    · intro writer
      exact absurd noWriter writer

theorem Exclusive.writeTry (exclusive : Exclusive s) (party : Party)
    (free : s.lock.sema ≠ 0) :
    Exclusive { s with
      lock := { s.lock with sema := s.lock.sema - 1 }
      writers := party :: s.writers } := by
  obtain ⟨noReader, noWriter⟩ := exclusive.empty free
  have binary := exclusive.binary
  refine ⟨exclusive.readCnt, ?_, ?_, ?_, fun _ => noReader⟩
  · exact Nat.le_trans (Nat.sub_le _ _) binary
  · simp only [ne_eq, reduceCtorEq, not_false_eq_true, or_true, iff_true]
    omega
  · simp [noWriter]

theorem Exclusive.writePost [DecidableEq Party] (exclusive : Exclusive s) {party : Party}
    (inside : party ∈ s.writers) :
    Exclusive { s with
      lock := (wlanMgmtScanQueWritePost s.lock).2
      writers := s.writers.erase party } := by
  have writing : s.writers ≠ [] := List.ne_nil_of_mem inside
  have noReader := exclusive.apart writing
  have taken : s.lock.sema = 0 := exclusive.held.mpr (.inr writing)
  have left : s.writers.erase party = [] := by
    have size := List.length_erase_of_mem inside
    have alone := exclusive.alone
    exact List.length_eq_zero_iff.mp (by omega)
  have none : s.lock.readCnt = 0 := exclusive.readCnt_zero.mpr noReader
  refine ⟨exclusive.readCnt, ?_, ?_, ?_, fun _ => noReader⟩
  · simp [wlanMgmtScanQueWritePost, taken]
  · simp [wlanMgmtScanQueWritePost, left, none]
  · simp [left]

theorem exclusive_lockInit : Exclusive (lockInit : Parties Party) := by
  refine ⟨rfl, Nat.le_refl 1, ?_, Nat.zero_le 1, fun _ => rfl⟩
  simp [lockInit]

end Kept

section Run

variable {Party : Type u} [DecidableEq Party]

theorem lockStep_exclusive (s : Parties Party) (call : LockCall Party)
    (exclusive : Exclusive s) :
    ∃ next, lockStep s call = some next ∧ Exclusive next := by
  cases call with
  | readTry party =>
      refine ⟨_, rfl, ?_⟩
      cases exclusive.readTry party with
      | inl failed =>
          rw [if_neg failed.1, failed.2]
          exact exclusive
      | inr entered =>
          rw [if_pos entered.1]
          exact entered.2
  | readPost party =>
      by_cases inside : party ∈ s.readers
      · exact ⟨_, if_pos inside, exclusive.readPost inside⟩
      · exact ⟨s, if_neg inside, exclusive⟩
  | writeTry party =>
      refine ⟨_, rfl, ?_⟩
      unfold wlanMgmtScanQueWriteTry
      by_cases taken : s.lock.sema = 0
      · simpa [taken] using exclusive
      · simpa [taken] using exclusive.writeTry party taken
  | writePost party =>
      by_cases inside : party ∈ s.writers
      · exact ⟨_, if_pos inside, exclusive.writePost inside⟩
      · exact ⟨s, if_neg inside, exclusive⟩

theorem readers_writer_exclusion (calls : List (LockCall Party)) :
    Throughout lockStep Exclusive (lockInit : Parties Party) calls :=
  throughout_of_kept Exclusive (fun _ exclusive => exclusive) lockStep_exclusive
    exclusive_lockInit calls

end Run

end Smartchip.Scan
