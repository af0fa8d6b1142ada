import Mathlib.Order.Nat
import Tnp.Client.WithLock

/-!
Who has the lock.

The file at the path is that of the one process that holds it, or a crashed one's. A waiter that
breaks a stale file keeps it so as long as the file is still the one it looked at.
-/

namespace Tnp.Client.WithLock

open Tnp.Lib Tnp.Lib.Run

variable {platform : Platform} {s s' : State} {e : Event} {p q : Pid} {before after : Phase}

/-- No two processes run under the lock. -/
def Exclusive (s : State) : Prop :=
  ∀ p q i j t u, s.processes.get p = some (.holding .running i t) →
    s.processes.get q = some (.holding .running j u) → p = q

/-- The process whose call removes the file at the path. -/
def remover (s : State) : Event → Option Pid
  | .unlink p =>
    match s.processes.get p with
    | some (.breaking ..) => some p
    | _ => none
  | .release p =>
    match s.processes.get p with
    | some (.holding .leaving ..) => some p
    | _ => none
  | _ => none

/-- No process removes a file that another one, which has not crashed, created. -/
def RemovesOwn (s : State) (e : Event) : Prop :=
  ∀ p ∈ remover s e, ∀ f ∈ s.lockPath, f.creator = p ∨ s.processes.get f.creator = some .crashed

/-- No holder that is alive has kept the lock longer than a stale one's age. -/
def prompt (platform : Platform) (s : State) : Bool :=
  s.processes.values.all fun
    | .holding _ _ since => s.now ≤ since + platform.STALE_LOCK_MS
    | _ => true

/-- What a waiter breaks is the file it found stale, or a later one whose creator has crashed since:
no other process took the lock between its look and its unlink. -/
def undisturbed (s : State) : Event → Bool
  | .unlink p =>
    match s.processes.get p with
    | some (.breaking _ seen) => s.lockPath.all fun f =>
        f.inode = seen ∨ s.processes.get f.creator = some .crashed
    | _ => true
  | _ => true

/-! ### The file and its holder -/

/-- What the phase of a process says of the file at the path. -/
def Fits (s : State) (p : Pid) : Phase → Prop
  | .holding _ inode since => ∃ mtimeMs, s.lockPath = some ⟨inode, p, mtimeMs⟩ ∧ since ≤ mtimeMs
  | .looking _ clock => clock ≤ s.now
  | .breaking _ seen => seen < s.nextInode ∧ ∀ f, s.lockPath = some f → f.inode = seen →
      s.processes.get f.creator = some .crashed
  | _ => True

structure Locked (s : State) : Prop where
  fits : ∀ p phase, s.processes.get p = some phase → Fits s p phase
  /-- The file is that of its holder, or a crashed one's. -/
  owner : ∀ f, s.lockPath = some f → s.processes.get f.creator = some .crashed ∨
    ∃ stage since, s.processes.get f.creator = some (.holding stage f.inode since)
  file : ∀ f, s.lockPath = some f → f.inode < s.nextInode ∧ f.mtimeMs ≤ s.now

/-- While the file stays, and the crashed stay crashed, so does what a phase says of it. -/
lemma Fits.mono {phase : Phase} (h : Fits s q phase) (hfile : s'.lockPath = s.lockPath)
    (hnow : s.now ≤ s'.now) (hnext : s.nextInode ≤ s'.nextInode)
    (hcrashed : ∀ f, s.lockPath = some f → s.processes.get f.creator = some .crashed →
      s'.processes.get f.creator = some .crashed) : Fits s' q phase := by
  cases phase with
  | holding stage inode since =>
    unfold Fits at h ⊢
    rwa [hfile]
  | looking deadline clock => exact h.trans hnow
  | breaking deadline seen =>
    refine ⟨h.1.trans_le hnext, fun f hf hinode => ?_⟩
    rw [hfile] at hf
    exact hcrashed f hf (h.2 f hf hinode)
  | _ => trivial

/-- Where there is no file, nothing is said of it. -/
lemma Fits.removed {phase : Phase} (h : Fits s q phase) (hfile : s'.lockPath = none)
    (hnow : s.now ≤ s'.now) (hnext : s.nextInode ≤ s'.nextInode)
    (hphase : ∀ stage inode since, phase ≠ .holding stage inode since) : Fits s' q phase := by
  cases phase with
  | holding stage inode since => exact absurd rfl (hphase stage inode since)
  | looking deadline clock => exact h.trans hnow
  | breaking deadline seen => exact ⟨h.1.trans_le hnext, by simp [hfile]⟩
  | _ => trivial

namespace Locked

lemma exclusive (h : Locked s) : Exclusive s := by
  intro p q i j t u hp hq
  obtain ⟨m, hfile, -⟩ := h.fits p _ hp
  obtain ⟨m', hfile', -⟩ := h.fits q _ hq
  exact (LockFile.mk.inj (Option.some.inj (hfile.symm.trans hfile'))).2.1

/-- A process without the lock did not create the file. -/
lemma creator_ne (h : Locked s) (hp : (s.processes.get p).all Phase.waiting = true) {f : LockFile}
    (hf : s.lockPath = some f) : p ≠ f.creator := by
  rintro rfl
  rcases h.owner f hf with hcrashed | ⟨stage, since, hholding⟩
  · simp [hcrashed, Phase.waiting] at hp
  · simp [hholding, Phase.waiting] at hp

/-- A process without the lock goes on without it. -/
lemma phase (h : Locked s) (hp : (s.processes.get p).all Phase.waiting = true)
    (hafter : Fits s p after) : Locked (s.phase p after) where
  fits := by
    have hkeep {f : LockFile} (hf : s.lockPath = some f) :
        (s.phase p after).processes.get f.creator = s.processes.get f.creator :=
      OrderedMap.get_set_of_ne _ (h.creator_ne hp hf)
    refine OrderedMap.forall_set ?_ ?_
    · exact fun q phase hq => (h.fits q phase hq).mono rfl le_rfl le_rfl
        fun f hf hcrashed => (hkeep hf).trans hcrashed
    · exact hafter.mono rfl le_rfl le_rfl fun f hf hcrashed => (hkeep hf).trans hcrashed
  owner f hf := by
    have hkeep : (s.phase p after).processes.get f.creator = s.processes.get f.creator :=
      OrderedMap.get_set_of_ne _ (h.creator_ne hp hf)
    rw [hkeep]
    exact h.owner f hf
  file := h.file

lemma out (h : Locked s) (hp : (s.processes.get p).all Phase.waiting = true) :
    Locked (s.out p) where
  fits := by
    refine OrderedMap.forall_delete fun q phase hq => ?_
    refine (h.fits q phase hq).mono rfl le_rfl le_rfl fun f hf hcrashed => ?_
    exact (OrderedMap.get_delete_of_ne (h.creator_ne hp hf)).trans hcrashed
  owner f hf := by
    have hkeep : (s.out p).processes.get f.creator = s.processes.get f.creator :=
      OrderedMap.get_delete_of_ne (h.creator_ne hp hf)
    rw [hkeep]
    exact h.owner f hf
  file := h.file

/-- No process holds a file that is not there. -/
lemma not_holding (h : Locked s) (hfile : s.lockPath = none) {phase : Phase}
    (hq : s.processes.get q = some phase) (stage : Stage) (inode : Inode) (since : ℕ) :
    phase ≠ .holding stage inode since := by
  rintro rfl
  obtain ⟨m, hsome, -⟩ := h.fits q _ hq
  simp [hfile] at hsome

lemma create (h : Locked s) (hfile : s.lockPath = none) :
    Locked { s.phase p (.holding .created s.nextInode s.now) with
      lockPath := some ⟨s.nextInode, p, s.now⟩
      nextInode := s.nextInode + 1 } where
  fits := by
    refine OrderedMap.forall_set (fun q phase hq => ?_) ⟨s.now, rfl, le_rfl⟩
    have hfits := h.fits q phase hq
    cases phase with
    | holding stage inode since => exact absurd rfl (h.not_holding hfile hq stage inode since)
    | looking deadline clock => exact hfits
    | breaking deadline seen =>
      refine ⟨hfits.1.trans (Nat.lt_succ_self _), fun f hf hinode => ?_⟩
      obtain rfl := Option.some.inj hf
      exact absurd hinode hfits.1.ne'
    | _ => trivial
  owner f hf := by
    obtain rfl := Option.some.inj hf
    exact .inr ⟨.created, s.now, OrderedMap.get_set_self _⟩
  file f hf := by
    obtain rfl := Option.some.inj hf
    exact ⟨Nat.lt_succ_self _, le_rfl⟩

/-- Where no process holds a file, there need be none. -/
lemma remove (hfile : s.lockPath = none)
    (hfits : ∀ q phase, s.processes.get q = some phase → Fits s q phase) : Locked s where
  fits := hfits
  owner f hf := by simp [hfile] at hf
  file f hf := by simp [hfile] at hf

/-- The holder is the one whose file it is. -/
lemma holder_eq (h : Locked s) {f : LockFile} (hf : s.lockPath = some f) {stage : Stage}
    {inode : Inode} {since : ℕ} (hq : s.processes.get q = some (.holding stage inode since)) :
    q = f.creator := by
  obtain ⟨m, hfile, -⟩ := h.fits q _ hq
  rw [hfile] at hf
  exact congrArg LockFile.creator (Option.some.inj hf)

/-- The holder goes on, or crashes, with its file where it is. -/
lemma keep (h : Locked s) {stage : Stage} {inode : Inode} {since mtimeMs : ℕ}
    (hp : s.processes.get p = some (.holding stage inode since)) (hsince : since ≤ mtimeMs)
    (hmtime : mtimeMs ≤ s.now)
    (hafter : after = .crashed ∨ ∃ stage', after = .holding stage' inode since) :
    Locked { s.phase p after with lockPath := some ⟨inode, p, mtimeMs⟩ } where
  fits := by
    obtain ⟨m, hfile, -⟩ := h.fits p _ hp
    refine OrderedMap.forall_set (fun q phase hq => ?_) ?_
    · have hfits := h.fits q phase hq
      cases phase with
      | holding stage' inode' since' =>
        obtain rfl : q = p := h.holder_eq hfile hq
        obtain ⟨-, rfl, rfl⟩ := Phase.holding.inj (Option.some.inj (hq.symm.trans hp))
        exact ⟨mtimeMs, rfl, hsince⟩
      | looking deadline clock => exact hfits
      | breaking deadline seen =>
        refine ⟨hfits.1, fun f hf hinode => ?_⟩
        obtain rfl := Option.some.inj hf
        cases hp.symm.trans (hfits.2 _ hfile hinode)
      | _ => trivial
    · obtain rfl | ⟨stage', rfl⟩ := hafter
      · trivial
      · exact ⟨mtimeMs, rfl, hsince⟩
  owner f hf := by
    obtain rfl := Option.some.inj hf
    have hself : (s.phase p after).processes.get p = some after := OrderedMap.get_set_self _
    obtain rfl | ⟨stage', rfl⟩ := hafter
    · exact .inl hself
    · exact .inr ⟨stage', since, hself⟩
  file f hf := by
    obtain ⟨m, hfile, -⟩ := h.fits p _ hp
    obtain rfl := Option.some.inj hf
    exact ⟨(h.file _ hfile).1, hmtime⟩

/-- A file found stale is a crashed process's: a living holder would have kept it too long. -/
lemma crashed_of_stale (h : Locked s) (hprompt : prompt platform s = true) {deadline clock : ℕ}
    (hp : s.processes.get p = some (.looking deadline clock)) {f : LockFile}
    (hf : s.lockPath = some f) (hstale : platform.STALE_LOCK_MS < clock - f.mtimeMs) :
    s.processes.get f.creator = some .crashed := by
  rcases h.owner f hf with hcrashed | ⟨stage, since, hholding⟩
  · exact hcrashed
  · exfalso
    have hclock : clock ≤ s.now := h.fits p _ hp
    obtain ⟨m, hfile, hsince⟩ := h.fits f.creator _ hholding
    have hmtime : f.mtimeMs = m :=
      congrArg LockFile.mtimeMs (Option.some.inj (hf.symm.trans hfile))
    have hkept := List.all_eq_true.mp hprompt _ (OrderedMap.mem_values_iff.mpr ⟨_, hholding⟩)
    simp only [decide_eq_true_eq] at hkept
    omega

theorem move (h : Locked s) (hprompt : prompt platform s = true)
    (hundisturbed : undisturbed s e = true) (hmove : Move platform s e s') : Locked s' := by
  cases hmove with
  | still => exact h
  | tick ms =>
    refine ⟨fun q phase hq => ?_, h.owner, fun f hf => ?_⟩
    · exact (h.fits q phase hq).mono rfl (Nat.le_add_right _ _) le_rfl fun f _ hcrashed => hcrashed
    · exact ⟨(h.file f hf).1, (h.file f hf).2.trans (Nat.le_add_right _ _)⟩
  | enter p hp => exact h.phase (by simp [hp]) trivial
  | wait e p before after hp hbefore hafter =>
    refine h.phase (by simpa [hp] using hbefore) ?_
    cases after <;> trivial
  | look p deadline hp => exact h.phase (by simp [hp, Phase.waiting]) (le_refl s.now)
  | judge p deadline clock f hp hfile hstale =>
    refine h.phase (by simp [hp, Phase.waiting]) ⟨(h.file f hfile).1, fun g hg _ => ?_⟩
    obtain rfl := Option.some.inj (hfile.symm.trans hg)
    exact h.crashed_of_stale hprompt hp hfile hstale
  | out e p before hp hbefore => exact h.out (by simpa [hp] using hbefore)
  | create p deadline hp hfile => exact h.create hfile
  | unlink p deadline seen hp =>
    refine remove rfl (OrderedMap.forall_set (fun q phase hq => ?_) trivial)
    refine (h.fits q phase hq).removed rfl le_rfl le_rfl ?_
    rintro stage inode since rfl
    obtain ⟨m, hfile, -⟩ := h.fits q _ hq
    simp only [undisturbed, hp, hfile, Option.all_some, decide_eq_true_eq, hq] at hundisturbed
    rcases hundisturbed with rfl | hcrashed
    · cases (hq.symm.trans ((h.fits p _ hp).2 _ hfile rfl))
    · cases hcrashed
  | write p inode since hp =>
    obtain ⟨m, hfile, hsince⟩ := h.fits p _ hp
    have htouch : (s.touch inode).lockPath = some ⟨inode, p, s.now⟩ := by
      simp [State.touch, hfile]
    have hkeep : Locked { s.phase p (.holding .running inode since) with
        lockPath := some ⟨inode, p, s.now⟩ } :=
      h.keep hp (hsince.trans (h.file _ hfile).2) le_rfl (.inr ⟨_, rfl⟩)
    rw [← htouch] at hkeep
    exact hkeep
  | leave p stage inode since hp =>
    obtain ⟨m, hfile, hsince⟩ := h.fits p _ hp
    have hkeep : Locked { s.phase p (.holding .leaving inode since) with
        lockPath := some ⟨inode, p, m⟩ } :=
      h.keep hp hsince (h.file _ hfile).2 (.inr ⟨_, rfl⟩)
    rw [← hfile] at hkeep
    exact hkeep
  | release p inode since hp =>
    obtain ⟨m, hfile, -⟩ := h.fits p _ hp
    refine remove rfl fun q phase hq => ?_
    have hget : (s.out p).processes.get q = some phase := hq
    simp only [State.out, OrderedMap.get_delete] at hget
    split at hget
    · cases hget
    next hne =>
    refine (h.fits q phase hget).removed rfl le_rfl le_rfl ?_
    rintro stage inode' since' rfl
    exact hne (h.holder_eq hfile hget).symm
  | crash p before hp hbefore =>
    cases before with
    | holding stage inode since =>
      obtain ⟨m, hfile, hsince⟩ := h.fits p _ hp
      have hkeep : Locked { s.phase p .crashed with lockPath := some ⟨inode, p, m⟩ } :=
        h.keep hp hsince (h.file _ hfile).2 (.inl rfl)
      rw [← hfile] at hkeep
      exact hkeep
    | crashed => exact absurd rfl hbefore
    | _ => exact h.phase (by simp [hp, Phase.waiting]) trivial

theorem step (h : Locked s) (hprompt : prompt platform s = true)
    (hundisturbed : undisturbed s e = true) : Locked (step platform s e) :=
  h.move hprompt hundisturbed (move_step platform s e)

lemma init : Locked {} where
  fits p phase h := by simp at h
  owner f h := by cases h
  file f h := by cases h

/-- Undisturbed, a process removes its own file or a crashed one's. -/
lemma removesOwn (h : Locked s) (hundisturbed : undisturbed s e = true) : RemovesOwn s e := by
  intro p hp f hf
  obtain hf : s.lockPath = some f := hf
  cases e with
  | unlink q =>
    cases hq : s.processes.get q with
    | none => simp [remover, hq] at hp
    | some phase =>
      cases phase with
      | breaking deadline seen =>
        simp only [undisturbed, hq, hf, Option.all_some, decide_eq_true_eq] at hundisturbed
        rcases hundisturbed with hseen | hcrashed
        · exact .inr ((h.fits q _ hq).2 f hf hseen)
        · exact .inr hcrashed
      | _ => simp [remover, hq] at hp
  | release q =>
    cases hq : s.processes.get q with
    | none => simp [remover, hq] at hp
    | some phase =>
      cases phase with
      | holding stage inode since =>
        cases stage with
        | leaving =>
          obtain rfl : q = p := by simpa [remover, hq] using hp
          exact .inl (h.holder_eq hf hq).symm
        | _ => simp [remover, hq] at hp
      | _ => simp [remover, hq] at hp
  | _ => simp [remover] at hp

/-- A disturbed waiter removes a living process's file. -/
lemma undisturbed_of_removesOwn (h : Locked s) (hown : RemovesOwn s e) :
    undisturbed s e = true := by
  cases e with
  | unlink q =>
    cases hq : s.processes.get q with
    | none => simp [undisturbed, hq]
    | some phase =>
      cases phase with
      | breaking deadline seen =>
        simp only [undisturbed, hq, Option.all_eq_true, decide_eq_true_eq]
        intro f hf
        rcases hown q (by simp [remover, hq]) f hf with hself | hcrashed
        · exact absurd hself.symm (h.creator_ne (by simp [hq, Phase.waiting]) hf)
        · exact .inr hcrashed
      | _ => simp [undisturbed, hq]
  | _ => rfl

end Locked

/-- **The lock excludes exactly where no waiter is overtaken**: while no living holder keeps it
longer than a stale lock's age, no two processes run under it and none removes a file of a living
other, in every state and every call of a run, if and only if each waiter that breaks a stale file
breaks the one it looked at. -/
theorem lock_exclusion (platform : Platform) (es : List Event)
    (hprompt : Allowed (WithLock.step platform) (fun s _ => prompt platform s) {} es) :
    Allowed (WithLock.step platform)
        (fun s e => Exclusive (WithLock.step platform s e) ∧ RemovesOwn s e) {} es ↔
      Allowed (WithLock.step platform) (fun s e => undisturbed s e) {} es := by
  suffices hrun : ∀ s, Locked s →
      Allowed (WithLock.step platform) (fun s _ => prompt platform s) s es →
      (Allowed (WithLock.step platform)
        (fun s e => Exclusive (WithLock.step platform s e) ∧ RemovesOwn s e) s es ↔
      Allowed (WithLock.step platform) (fun s e => undisturbed s e) s es) from
    hrun {} Locked.init hprompt
  clear hprompt
  induction es with
  | nil => exact fun _ _ _ => Iff.rfl
  | cons e es ih =>
    rintro s hs ⟨hprompt, hlater⟩
    constructor
    · rintro ⟨⟨-, hown⟩, hrest⟩
      have hundisturbed := hs.undisturbed_of_removesOwn hown
      exact ⟨hundisturbed, (ih _ (hs.step hprompt hundisturbed) hlater).mp hrest⟩
    · rintro ⟨hundisturbed, hrest⟩
      have hstep := hs.step hprompt hundisturbed
      exact ⟨⟨hstep.exclusive, hs.removesOwn hundisturbed⟩, (ih _ hstep hlater).mpr hrest⟩

/-- A holder crashes, and its file grows stale. -/
def crashedHolder : List Event := [.enter 0, .create 0, .write 0, .crash 0, .tick 10001]

/-- One waiter breaks the stale file, and takes the lock. -/
def takenOver : List Event :=
  crashedHolder ++ [.enter 1, .create 1, .check 1, .stat 1, .unlink 1, .create 1, .write 1,
    .leave 1, .release 1]

theorem takenOver_exclusion :
    Allowed (WithLock.step {})
        (fun s e => Exclusive (WithLock.step {} s e) ∧ RemovesOwn s e) {} takenOver ↔
      Allowed (WithLock.step {}) (fun s e => undisturbed s e) {} takenOver :=
  lock_exclusion {} takenOver (by decide)

/-- Two waiters find the file stale. The second breaks it when the first has its own there. -/
def overtaken : List Event :=
  crashedHolder ++ [.enter 1, .enter 2, .create 1, .create 2, .check 1, .check 2, .stat 1, .stat 2,
    .unlink 1, .create 1, .write 1, .unlink 2, .create 2]

/-- **Two processes run under the lock.** -/
theorem overtaken_not_excluded : ¬ ∀ (platform : Platform) (es : List Event),
    Allowed (WithLock.step platform) (fun s _ => prompt platform s) {} es →
      Allowed (WithLock.step platform)
        (fun s e => Exclusive (WithLock.step platform s e) ∧ RemovesOwn s e) {} es := by
  intro h
  have hlast := (h {} (overtaken ++ [.write 2]) (by decide)).last
  have hfirst : (WithLock.step {} (Lib.Run.run (WithLock.step {}) {} overtaken)
      (.write 2)).processes.get 1 = some (.holding .running 1 10001) := by decide
  have hsecond : (WithLock.step {} (Lib.Run.run (WithLock.step {}) {} overtaken)
      (.write 2)).processes.get 2 = some (.holding .running 2 10001) := by decide
  exact absurd (hlast.1 1 2 1 2 10001 10001 hfirst hsecond) (by decide)

end Tnp.Client.WithLock
