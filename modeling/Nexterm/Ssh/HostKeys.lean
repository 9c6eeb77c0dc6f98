/-
  The check of a server's key against `known_hosts` (`SshHandler::check_server_key` in
  `nexterm-ssh/src/lib.rs`).

  * `KnownHosts`: the crate `russh`, which checks a key and records one; `Lawful`: what is
    documented of it.
  * `classifyKnownHostsResult`, `checkServerKey`: what the code makes of it.
  * `Contact`, `trustOn`: the keys that servers show one after the other.
  * `pin_run`: whatever servers show, a host whose key is in the file is never accepted with
    another key of that algorithm, and a check that fails accepts nothing.
-/
import Mathlib.Data.Nat.Notation
import Nexterm.Lib.Runs

namespace Nexterm.Ssh

/-- `russh::keys::Error`. -/
inductive KeysError
  | keyChanged (line : ℕ)
  | other (text : String)
  deriving DecidableEq

/-- The part of `russh::Error` that the check returns. -/
inductive RusshError
  | keyChanged (line : ℕ)
  | keys (e : KeysError)
  deriving DecidableEq

/-- The functions of the crate on a file of type `φ` and keys of type `κ`. -/
structure KnownHosts (φ κ : Type) where
  checkKnownHosts : φ → String → UInt16 → κ → Except KeysError Bool
  /-- The file with the key, or `none` if it could not be written. -/
  learnKnownHosts : φ → String → UInt16 → κ → Option φ
  /-- Two keys are of the same algorithm. -/
  algorithm : κ → String

/-- What is documented of the crate. -/
structure KnownHosts.Lawful {φ κ : Type} (K : KnownHosts φ κ) : Prop where
  /-- A key that was recorded matches. -/
  learned : ∀ {file file' host port key}, K.checkKnownHosts file host port key = .ok false →
    K.learnKnownHosts file host port key = some file' → K.checkKnownHosts file' host port key = .ok true
  /-- To record another key for a host that had none of its algorithm does not change what matches. -/
  kept : ∀ {file file' host port key host' port' key'},
    K.checkKnownHosts file host port key = .ok true →
    K.checkKnownHosts file host' port' key' = .ok false →
    K.learnKnownHosts file host' port' key' = some file' → K.checkKnownHosts file' host port key = .ok true
  /-- Another key of the same algorithm is reported as changed. -/
  changed : ∀ {file host port key key'}, K.checkKnownHosts file host port key = .ok true →
    K.algorithm key' = K.algorithm key → key' ≠ key →
    ∃ line, K.checkKnownHosts file host port key' = .error (.keyChanged line)

/-- Outcome of checking a server's host key. -/
inductive HostKeyDecision
  /-- The key matches a recorded entry. -/
  | accept
  /-- First connection. -/
  | acceptAndLearn
  | reject (e : RusshError)
  /-- Verification could not complete. -/
  | rejectOnError (e : RusshError)
  deriving DecidableEq

/-- Classify the result of the check. -/
def classifyKnownHostsResult : Except KeysError Bool → HostKeyDecision
  | .ok true => .accept
  | .ok false => .acceptAndLearn
  | .error (.keyChanged line) => .reject (.keyChanged line)
  | .error e => .rejectOnError (.keys e)

section

variable {φ κ : Type} (K : KnownHosts φ κ)

/-- Checks the key that a server shows; a new one is recorded if that is possible. -/
def checkServerKey (file : φ) (host : String) (port : UInt16) (key : κ) : φ × Except RusshError Bool :=
  match classifyKnownHostsResult (K.checkKnownHosts file host port key) with
  | .accept => (file, .ok true)
  | .acceptAndLearn => ((K.learnKnownHosts file host port key).getD file, .ok true)
  | .reject e => (file, .error e)
  | .rejectOnError e => (file, .error e)

/-- A server shows a key. -/
structure Contact (κ : Type) where
  host : String
  port : UInt16
  key : κ

/-- The server's key is accepted. -/
def Accepts (file : φ) (c : Contact κ) : Prop := (checkServerKey K file c.host c.port c.key).2 = .ok true

/-- The file after a contact. -/
def trustOn (file : φ) (c : Contact κ) : φ := (checkServerKey K file c.host c.port c.key).1

/-- The file has the key. -/
def Pinned (file : φ) (c : Contact κ) : Prop := K.checkKnownHosts file c.host c.port c.key = .ok true

variable {K} {file : φ} {c c' : Contact κ}

/-- A key is accepted if it is in the file, or if the file has none. -/
theorem accepts_iff : Accepts K file c ↔
    Pinned K file c ∨ K.checkKnownHosts file c.host c.port c.key = .ok false := by
  unfold Accepts Pinned checkServerKey
  rcases K.checkKnownHosts file c.host c.port c.key with (line | text) | (_ | _) <;>
    simp [classifyKnownHostsResult]

/-- What a contact does to the file: nothing, or it records the key of a host that had none. -/
theorem trustOn_cases (file : φ) (c : Contact κ) : trustOn K file c = file ∨
    K.checkKnownHosts file c.host c.port c.key = .ok false ∧
      K.learnKnownHosts file c.host c.port c.key = some (trustOn K file c) := by
  unfold trustOn checkServerKey
  rcases hcheck : K.checkKnownHosts file c.host c.port c.key with (line | text) | (_ | _)
  · exact .inl rfl
  · exact .inl rfl
  · rcases hlearn : K.learnKnownHosts file c.host c.port c.key with _ | file'
    · exact .inl rfl
    · exact .inr ⟨rfl, rfl⟩
  · exact .inl rfl

theorem Pinned.trustOn (hK : K.Lawful) (h : Pinned K file c) (c' : Contact κ) :
    Pinned K (trustOn K file c') c := by
  rcases trustOn_cases (K := K) file c' with heq | ⟨hnone, hlearn⟩
  · rw [heq]
    exact h
  · exact hK.kept h hnone hlearn

theorem Pinned.run (hK : K.Lawful) (h : Pinned K file c) (cs : List (Contact κ)) :
    Pinned K (Runs.run (Ssh.trustOn K) file cs) c :=
  Runs.run_inv (P := fun file => Pinned K file c) (fun _ c' h => h.trustOn hK c') h

/-- The file has a key that was accepted, or it could not be written. -/
theorem pinned_of_accepts (hK : K.Lawful) (h : Accepts K file c) :
    Pinned K (trustOn K file c) c ∨ K.learnKnownHosts file c.host c.port c.key = none := by
  rcases accepts_iff.1 h with hpinned | hnone
  · exact .inl (hpinned.trustOn hK c)
  · rcases hlearn : K.learnKnownHosts file c.host c.port c.key with _ | file'
    · exact .inr rfl
    · left
      have heq : trustOn K file c = file' := by
        unfold trustOn checkServerKey
        rw [hnone]
        simp only [classifyKnownHostsResult, hlearn, Option.getD_some]
      rw [heq]
      exact hK.learned hnone hlearn

theorem eq_of_pinned (hK : K.Lawful) (h : Pinned K file c) (hhost : c'.host = c.host)
    (hport : c'.port = c.port) (halg : K.algorithm c'.key = K.algorithm c.key)
    (haccepts : Accepts K file c') : c'.key = c.key := by
  by_contra hne
  obtain ⟨line, hchanged⟩ := hK.changed h halg hne
  rw [← hhost, ← hport] at hchanged
  rcases accepts_iff.1 haccepts with hpinned | hnone
  · rw [Pinned, hchanged] at hpinned
    cases hpinned
  · rw [hchanged] at hnone
    cases hnone

/-- **A key once in the file stays.**  Whatever keys servers show, before and after: when a key was
    accepted and the file could be written, every later key of its algorithm that is accepted for
    the host and the port is the same; and what is accepted is in the file or has no entry. -/
theorem pin_run (hK : K.Lawful) (file : φ) (before after : List (Contact κ)) (c c' : Contact κ) :
    let file₁ := Runs.run (trustOn K) file before
    let file₂ := Runs.run (trustOn K) file (before ++ c :: after)
    (Accepts K file₁ c ↔ Pinned K file₁ c ∨ K.checkKnownHosts file₁ c.host c.port c.key = .ok false) ∧
    (Accepts K file₁ c → Pinned K file₂ c ∨ K.learnKnownHosts file₁ c.host c.port c.key = none) ∧
    (Pinned K file₂ c → c'.host = c.host → c'.port = c.port →
      K.algorithm c'.key = K.algorithm c.key → Accepts K file₂ c' → c'.key = c.key) := by
  intro file₁ file₂
  refine ⟨accepts_iff, fun haccepts => ?_, fun hpinned hhost hport halg haccepts =>
    eq_of_pinned hK hpinned hhost hport halg haccepts⟩
  refine (pinned_of_accepts hK haccepts).imp_left fun hpinned => ?_
  have hfile : file₂ = Runs.run (trustOn K) (trustOn K file₁ c) after := Runs.run_append _ _ _
  rw [hfile]
  exact hpinned.run hK after

end

/-- A file that has at most one key of an algorithm for a host and a port; a key is an algorithm and
    a number. -/
def oneKeyEach : KnownHosts (String → UInt16 → String → Option ℕ) (String × ℕ) where
  checkKnownHosts file host port key :=
    match file host port key.1 with
    | none => .ok false
    | some known => if known = key.2 then .ok true else .error (.keyChanged 1)
  learnKnownHosts file host port key := some fun host' port' algorithm =>
    if host' = host ∧ port' = port ∧ algorithm = key.1 then some key.2 else file host' port' algorithm
  algorithm := Prod.fst

theorem oneKeyEach_true {file : String → UInt16 → String → Option ℕ} {host : String} {port : UInt16}
    {key : String × ℕ} :
    oneKeyEach.checkKnownHosts file host port key = .ok true ↔ file host port key.1 = some key.2 := by
  simp only [oneKeyEach]
  rcases file host port key.1 with _ | known
  · simp
  · by_cases heq : known = key.2 <;> simp [heq]

theorem oneKeyEach_false {file : String → UInt16 → String → Option ℕ} {host : String} {port : UInt16}
    {key : String × ℕ} :
    oneKeyEach.checkKnownHosts file host port key = .ok false ↔ file host port key.1 = none := by
  simp only [oneKeyEach]
  rcases file host port key.1 with _ | known
  · simp
  · by_cases heq : known = key.2 <;> simp [heq]

theorem oneKeyEach_lawful : oneKeyEach.Lawful where
  learned := by
    intro file file' host port key _ hlearn
    simp only [oneKeyEach, Option.some.injEq] at hlearn
    rw [oneKeyEach_true, ← hlearn]
    simp
  kept := by
    intro file file' host port key host' port' key' hknown hnone hlearn
    rw [oneKeyEach_true] at hknown ⊢
    rw [oneKeyEach_false] at hnone
    simp only [oneKeyEach, Option.some.injEq] at hlearn
    rw [← hlearn]
    by_cases hsame : host = host' ∧ port = port' ∧ key.1 = key'.1
    · -- The entry is there, so nothing was recorded in its place.
      rw [hsame.1, hsame.2.1, hsame.2.2, hnone] at hknown
      cases hknown
    · simpa [hsame] using hknown
  changed := by
    intro file host port key key' hknown halg hne
    rw [oneKeyEach_true] at hknown
    have hnum : key.2 ≠ key'.2 := fun heq => hne (Prod.ext halg heq.symm)
    refine ⟨1, ?_⟩
    simp only [oneKeyEach] at halg ⊢
    simp [halg, hknown, hnum]

/-- A host whose key was recorded is not accepted with another key of that algorithm. -/
theorem pin_run_impostor :
    ¬ Accepts oneKeyEach (Runs.run (trustOn oneKeyEach) (fun _ _ _ => none)
        [⟨"db", 22, ("ed25519", 7)⟩, ⟨"web", 22, ("ed25519", 8)⟩]) ⟨"db", 22, ("ed25519", 9)⟩ := by
  obtain ⟨hfirst, hstays, honly⟩ := pin_run oneKeyEach_lawful (fun _ _ _ => none) []
    [⟨"web", 22, ("ed25519", 8)⟩] ⟨"db", 22, ("ed25519", 7)⟩ ⟨"db", 22, ("ed25519", 9)⟩
  intro haccepts
  rcases hstays (hfirst.2 (.inr (oneKeyEach_false.2 rfl))) with hpinned | hlost
  · have heq := honly hpinned rfl rfl rfl haccepts
    simp at heq
  · simp [oneKeyEach] at hlost

end Nexterm.Ssh
