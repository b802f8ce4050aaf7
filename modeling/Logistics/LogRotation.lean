import Logistics.Reachability
import Mathlib.Order.Interval.Finset.Nat

namespace Logistics.LogRotation

open Reachability Function

structure Config where
  maxBackupFiles : Nat
  positive : 0 < maxBackupFiles

/-- The backups beside a log file, by their index, with a bound above which there is none. A file
is known by the number of files that were rotated before it. -/
structure Directory where
  backup : Nat → Option Nat
  last : Nat
  absent : ∀ index, last < index → backup index = none

def Directory.rename (d : Directory) (index file : Nat) : Directory where
  backup := update d.backup index (some file)
  last := max d.last index
  absent := by
    intro k hk
    rw [update_of_ne (by omega), d.absent k (by omega)]

def Directory.remove (d : Directory) (index : Nat) : Directory where
  backup := update d.backup index none
  last := d.last
  absent := by
    intro k hk
    rw [update_apply, d.absent k hk, ite_self]

def Directory.indices (d : Directory) : Finset Nat :=
  (Finset.range (d.last + 1)).filter fun index => (d.backup index).isSome

/-- The log with its process: `rotations` is also the file that is being written, `startedAfter`
how many rotations there had been when the logger was initialized. -/
structure State where
  dir : Directory
  initialized : Bool
  nextIndex : Nat
  rotations : Nat
  startedAfter : Nat

def start : State := ⟨⟨fun _ => none, 0, fun _ _ => rfl⟩, false, 1, 0, 0⟩

def scanFrom (d : Directory) : Nat → Nat → Nat
  | 0, index => index
  | fuel + 1, index => if (d.backup index).isSome then scanFrom d fuel (index + 1) else index

def scanExistingBackups (d : Directory) : Nat := scanFrom d d.last 1

variable (cfg : Config)

def rotateFiles (s : State) : State :=
  let dir := s.dir.rename s.nextIndex s.rotations
  let nextIndex := s.nextIndex + 1
  let oldest : Int := nextIndex - cfg.maxBackupFiles - 1
  { s with
    dir := if 0 < cfg.maxBackupFiles ∧ 1 ≤ oldest then dir.remove oldest.toNat else dir
    nextIndex := nextIndex
    rotations := s.rotations + 1 }

/-- A `full` write finds the file at its maximal size. The messages that `log_init` and `log_rotate`
write themselves are further writes; `exit` ends the process without `log_close`. -/
inductive Event
  | logInit
  | logWrite (full : Bool)
  | logRotate
  | logClose
  | exit

def Event.rotates : Event → Bool
  | .logWrite full => full
  | .logRotate => true
  | _ => false

def step (s : State) (e : Event) : State :=
  match e with
  | .logInit =>
    if s.initialized then s
    else { s with initialized := true, nextIndex := scanExistingBackups s.dir, startedAfter := s.rotations }
  | .logWrite full => if s.initialized && full then rotateFiles cfg s else s
  | .logRotate => if s.initialized then rotateFiles cfg s else s
  | .logClose => { s with initialized := false }
  | .exit => { s with initialized := false }

def Rotation (s : State) (e : Event) : Prop := s.initialized = true ∧ e.rotates = true

/-- The rotation replaces no backup, and leaves at most as many as configured, the latest ones. -/
structure Retains (s : State) : Prop where
  fresh : s.dir.backup s.nextIndex = none
  atMost : (rotateFiles cfg s).dir.indices.card ≤ cfg.maxBackupFiles
  latest : ∀ index file file', (rotateFiles cfg s).dir.backup index = some file → file < file' →
    file' < (rotateFiles cfg s).rotations → ∃ index', (rotateFiles cfg s).dir.backup index' = some file'

structure Numbered (s : State) : Prop where
  backups : ∀ index file, s.dir.backup index = some file ↔
    index = file + 1 ∧ file < s.rotations ∧ s.rotations ≤ file + cfg.maxBackupFiles
  started : s.startedAfter ≤ s.rotations
  next : s.initialized = true →
    s.nextIndex = if s.startedAfter ≤ cfg.maxBackupFiles then s.rotations + 1 else 1

variable {cfg} {s : State} {d : Directory}

theorem mem_indices {index : Nat} : index ∈ d.indices ↔ (d.backup index).isSome := by
  rw [Directory.indices, Finset.mem_filter, Finset.mem_range]
  refine and_iff_right_of_imp fun h => ?_
  by_contra hlast
  rw [d.absent index (by omega)] at h
  cases h

theorem scanFrom_eq {n : Nat} (hgap : d.backup n = none) (hused : ∀ k, 1 ≤ k → k < n → (d.backup k).isSome) :
    ∀ fuel index, 1 ≤ index → index ≤ n → n ≤ index + fuel → scanFrom d fuel index = n := by
  intro fuel
  induction fuel with
  | zero => exact fun index _ hle hge => Nat.le_antisymm hle hge
  | succ fuel ih =>
    intro index hpos hle hge
    rw [scanFrom]
    rcases hle.lt_or_eq with hlt | rfl
    · rw [if_pos (hused index hpos hlt)]
      exact ih (index + 1) (by omega) hlt (by omega)
    · rw [hgap]
      rfl

theorem scanExistingBackups_eq {n : Nat} (hn : 1 ≤ n) (hgap : d.backup n = none)
    (hused : ∀ k, 1 ≤ k → k < n → (d.backup k).isSome) : scanExistingBackups d = n := by
  refine scanFrom_eq hgap hused _ _ (le_refl 1) hn ?_
  by_contra hlast
  have hlt := hused (d.last + 1) (by omega) (by omega)
  rw [d.absent _ (Nat.lt_succ_self _)] at hlt
  cases hlt

theorem backup_rotateFiles (cfg : Config) (s : State) (index : Nat) : (rotateFiles cfg s).dir.backup index =
    if index + cfg.maxBackupFiles = s.nextIndex ∧ 0 < index then none else if index =
    s.nextIndex then some s.rotations else s.dir.backup index := by
  simp only [rotateFiles, cfg.positive, true_and]
  split <;> rename_i hold
  · simp only [Directory.remove, Directory.rename, update_apply]
    congr 1
    exact propext (by omega)
  · rw [if_neg (by omega)]
    exact update_apply _ _ _ _

theorem numbered_start : Numbered cfg start where
  backups _ file := iff_of_false (Option.some_ne_none file).symm fun h => Nat.not_lt_zero _ h.2.1
  started := le_refl 0
  next h := absurd h Bool.false_ne_true

namespace Numbered

variable (h : Numbered cfg s)
include h

theorem logInit : scanExistingBackups s.dir =
    if s.rotations ≤ cfg.maxBackupFiles then s.rotations + 1 else 1 := by
  have hfree (index : Nat) (hindex : index = s.rotations + 1 ∨ index + cfg.maxBackupFiles ≤ s.rotations) :
      s.dir.backup index = none := by
    refine Option.eq_none_iff_forall_ne_some.2 fun file hfile => ?_
    have := (h.backups index file).1 hfile
    omega
  split
  · refine scanExistingBackups_eq (by omega) (hfree _ (.inl rfl)) fun k hk hlt => ?_
    have hfile := (h.backups k (k - 1)).2 (by omega)
    rw [hfile]
    rfl
  · exact scanExistingBackups_eq (le_refl 1) (hfree _ (.inr (by omega))) fun k hk hlt => by omega

theorem rotated (hnext : s.nextIndex = s.rotations + 1)
    (hstarted : s.startedAfter ≤ cfg.maxBackupFiles) : Numbered cfg (rotateFiles cfg s) where
  backups index file := by
    rw [backup_rotateFiles]
    change _ ↔ index = file + 1 ∧ file < s.rotations + 1 ∧ s.rotations + 1 ≤ file + cfg.maxBackupFiles
    split
    · exact iff_of_false (Option.some_ne_none file).symm (by omega)
    split
    · rw [Option.some.injEq]
      omega
    · rw [h.backups]
      omega
  started := Nat.le_succ_of_le h.started
  next _ := by
    rw [if_pos (show (rotateFiles cfg s).startedAfter ≤ _ from hstarted)]
    exact congrArg (· + 1) hnext

theorem retains (hnext : s.nextIndex = s.rotations + 1)
    (hstarted : s.startedAfter ≤ cfg.maxBackupFiles) : Retains cfg s where
  fresh := by
    refine Option.eq_none_iff_forall_ne_some.2 fun file hfile => ?_
    have := (h.backups _ file).1 hfile
    omega
  atMost := by
    have hsub : (rotateFiles cfg s).dir.indices ⊆
        Finset.Ioc (s.rotations + 1 - cfg.maxBackupFiles) (s.rotations + 1) := by
      intro index hindex
      obtain ⟨file, hfile⟩ := Option.isSome_iff_exists.1 (mem_indices.1 hindex)
      have hbackup : index = file + 1 ∧ file < s.rotations + 1 ∧ s.rotations + 1 ≤ file + cfg.maxBackupFiles :=
        ((h.rotated hnext hstarted).backups index file).1 hfile
      rw [Finset.mem_Ioc]
      omega
    have hcard := Finset.card_le_card hsub
    rw [Nat.card_Ioc] at hcard
    omega
  latest index file file' hfile hlt hrotated := by
    have hnumbered := h.rotated hnext hstarted
    have hbackup := (hnumbered.backups index file).1 hfile
    exact ⟨file' + 1, (hnumbered.backups _ file').2 ⟨rfl, hrotated, by omega⟩⟩

theorem not_retains (hnext : s.nextIndex = 1)
    (hmany : cfg.maxBackupFiles < s.rotations) : ¬Retains cfg s := by
  intro hretains
  have hpos := cfg.positive
  have hsub : insert 1 (Finset.Ioc (s.rotations - cfg.maxBackupFiles) s.rotations) ⊆
      (rotateFiles cfg s).dir.indices := by
    intro index hindex
    rw [mem_indices, backup_rotateFiles, hnext, if_neg (by omega)]
    split
    · rfl
    · next hne =>
      have hrange := Finset.mem_Ioc.1 ((Finset.mem_insert.1 hindex).resolve_left hne)
      rw [(h.backups index (index - 1)).2 (by omega)]
      rfl
  have hcard := (Finset.card_le_card hsub).trans hretains.atMost
  rw [Finset.card_insert_of_notMem (by rw [Finset.mem_Ioc]; omega), Nat.card_Ioc] at hcard
  omega

theorem retains_iff (hopen : s.initialized = true) : Retains cfg s ↔ s.startedAfter ≤ cfg.maxBackupFiles := by
  have hnext := h.next hopen
  have hstarted := h.started
  split at hnext
  · next hle => exact iff_of_true (h.retains hnext hle) hle
  · next hlt => exact iff_of_false (h.not_retains hnext (by omega)) hlt

theorem step {e : Event}
    (hrotation : Rotation s e → s.startedAfter ≤ cfg.maxBackupFiles) : Numbered cfg (step cfg s e) := by
  have hrotated (hopen : s.initialized = true) (he : e.rotates = true) : Numbered cfg (rotateFiles cfg s) := by
    have hstarted := hrotation ⟨hopen, he⟩
    have hnext := h.next hopen
    rw [if_pos hstarted] at hnext
    exact h.rotated hnext hstarted
  cases e with
  | logInit =>
    rw [LogRotation.step]
    split
    · exact h
    · exact ⟨h.backups, le_refl _, fun _ => h.logInit⟩
  | logWrite full =>
    rw [LogRotation.step]
    split
    · next hboth =>
      rw [Bool.and_eq_true] at hboth
      exact hrotated hboth.1 hboth.2
    · exact h
  | logRotate =>
    rw [LogRotation.step]
    split
    · next hopen => exact hrotated hopen rfl
    · exact h
  | logClose | exit => exact ⟨h.backups, h.started, fun hopen => absurd hopen Bool.false_ne_true⟩

end Numbered

/-- The backups are kept as configured through exactly the runs in which no process rotates whose
logger was initialized after more rotations than there may be backups. -/
theorem rotations_retain_iff (cfg : Config) (events : List Event) :
    Along (step cfg) (fun s e => Rotation s e → Retains cfg s) start events ↔
      Along (step cfg) (fun s e => Rotation s e → s.startedAfter ≤ cfg.maxBackupFiles) start events :=
  along_congr (I := Numbered cfg) (fun _ _ h => h.step)
    (fun _ _ h => forall_congr' fun hrotation => h.retains_iff hrotation.1) numbered_start events

def oneBackup : Config := ⟨1, by decide⟩

def restarted : State :=
  [Event.logInit, .logRotate, .logRotate, .logClose, .logInit, .logRotate].foldl (step oneBackup) start

/-- Where one backup is to be kept, a process started after two rotations leaves two, and then
replaces the older of them. -/
theorem restart_keeps_and_replaces :
    restarted.dir.indices.card = 2 ∧ restarted.dir.backup restarted.nextIndex = some 1 := by
  decide

end Logistics.LogRotation
