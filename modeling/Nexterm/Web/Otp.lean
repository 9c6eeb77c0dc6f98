/-
  One-time passwords (`web/otp.rs`): a code is accepted within one window of the current one and
  recorded, so that it is not accepted again; old records are collected.

  * `verify`: the check; `consumed`: the windows of the calls that succeed.
  * `Spent`: a window that no later call can succeed with, because it is recorded or too old.
  * `verify_single_use`: no window is consumed twice, and a record is collected only when its
    window cannot be accepted any more.

  `generate` is the generator of the library: the code of a Unix time.  Times are seconds since the
  epoch; they are far from the bound of an `i64` after the division.
-/
import Mathlib.Data.Finset.Basic
import Mathlib.Data.List.Pairwise
import Nexterm.Vt.Performer

namespace Nexterm.Web

/-- TOTP step (seconds). -/
def totpStep : ℕ := 30

/-- Range over which used codes are retained. -/
def replayWindowRange : ℤ := 2

namespace TotpManager

variable (generate : ℕ → String)

/-- The window among the current one and its neighbours that has the code. -/
def matching (code : String) (currentWindow : ℤ) : Option ℕ :=
  [-1, 0, 1].findSome? fun offset =>
    let window := currentWindow + offset
    if window < 0 then none
    else
      let expected := generate (window.toNat * totpStep)
      if expected.utf8ByteSize ≠ code.utf8ByteSize then none
      else if expected = code then some window.toNat else none

/-- Record the use of a code, unless it is already recorded, and collect old records. -/
def tryRecordUse (used : Finset (ℕ × String)) (window : ℕ) (code : String) (currentWindow : ℤ) :
    Bool × Finset (ℕ × String) :=
  if (window, code) ∈ used then (false, used)
  else (true, (insert (window, code) used).filter fun e =>
    (e.1 : ℤ) ≥ currentWindow - replayWindowRange)

/-- A call: the code, and the clock when it is made. -/
structure Call where
  code : String
  /-- Seconds since the epoch, negative before it. -/
  now : ℤ

/-- A code is six ASCII digits. -/
def isCode (code : String) : Bool :=
  code.utf8ByteSize = 6 ∧ code.toList.all fun c => '0' ≤ c ∧ c ≤ '9'

def Call.window (call : Call) : ℤ := call.now / totpStep

/-- The window whose code the call presents. -/
def Call.target (call : Call) : Option ℕ :=
  let code := Vt.trim call.code
  if !isCode code ∨ call.now < 0 then none else matching generate code call.window

/-- Verify a code. -/
def verify (used : Finset (ℕ × String)) (call : Call) : Bool × Finset (ℕ × String) :=
  match call.target generate with
  | none => (false, used)
  | some window =>
    tryRecordUse used window (generate (window * totpStep)) call.window

/-- The records after a run. -/
def run (used : Finset (ℕ × String)) (calls : List Call) : Finset (ℕ × String) :=
  calls.foldl (fun used call => (verify generate used call).2) used

/-- The window that a call consumes. -/
def consumes (used : Finset (ℕ × String)) (call : Call) : Option ℕ :=
  if (verify generate used call).1 then call.target generate else none

/-- The windows that a run consumes. -/
def consumed : Finset (ℕ × String) → List Call → List ℕ
  | _, [] => []
  | used, call :: calls =>
    (consumes generate used call).toList ++ consumed (verify generate used call).2 calls

/-! ## Single use -/

variable {generate} {used : Finset (ℕ × String)} {call : Call} {w : ℕ} {t : ℤ}

/-- A window is accepted within one of the current one. -/
theorem target_bounds (h : call.target generate = some w) :
    call.window - 1 ≤ w ∧ (w : ℤ) ≤ call.window + 1 := by
  unfold Call.target at h
  dsimp only at h
  split_ifs at h
  obtain ⟨offset, hoffset, h⟩ := List.exists_of_findSome?_eq_some h
  dsimp only at h
  split_ifs at h with hneg hlen hcode
  obtain rfl := Option.some.inj h
  simp only [List.mem_cons, List.not_mem_nil, or_false] at hoffset
  omega

/-- What a call does: nothing, or it consumes a window that is not recorded, records it and
    collects the records that are too old. -/
theorem verify_cases (generate : ℕ → String) (used : Finset (ℕ × String)) (call : Call) :
    (consumes generate used call = none ∧ (verify generate used call).2 = used) ∨
      ∃ w, consumes generate used call = some w ∧ call.target generate = some w ∧
        (w, generate (w * totpStep)) ∉ used ∧
        (verify generate used call).2 = (insert (w, generate (w * totpStep)) used).filter
          fun e => (e.1 : ℤ) ≥ call.window - replayWindowRange := by
  cases htarget : call.target generate with
  | none =>
    have hverify : verify generate used call = (false, used) := by rw [verify, htarget]
    exact .inl ⟨by simp [consumes, hverify], by rw [hverify]⟩
  | some w =>
    have hverify : verify generate used call =
        tryRecordUse used w (generate (w * totpStep)) call.window := by rw [verify, htarget]
    by_cases hused : (w, generate (w * totpStep)) ∈ used
    · rw [tryRecordUse, if_pos hused] at hverify
      exact .inl ⟨by simp [consumes, hverify], by rw [hverify]⟩
    · rw [tryRecordUse, if_neg hused] at hverify
      exact .inr ⟨w, by simp [consumes, hverify, htarget], rfl, hused, by rw [hverify]⟩

/-- The window is recorded or, for a call in window `t` or later, too old. -/
def Spent (generate : ℕ → String) (used : Finset (ℕ × String)) (t : ℤ) (w : ℕ) : Prop :=
  (w, generate (w * totpStep)) ∈ used ∨ (w : ℤ) < t - replayWindowRange

theorem Spent.not_consumes (h : Spent generate used t w) (ht : t ≤ call.window) :
    consumes generate used call ≠ some w := by
  intro hw
  obtain ⟨hnone, -⟩ | ⟨w', hw', htarget, hnew, -⟩ := verify_cases generate used call
  · rw [hnone] at hw
    cases hw
  · obtain rfl : w' = w := Option.some.inj (hw'.symm.trans hw)
    have hbounds := target_bounds htarget
    rcases h with h | h
    · exact hnew h
    · unfold replayWindowRange at h
      omega

theorem Spent.verify (h : Spent generate used t w) (ht : t ≤ call.window) :
    Spent generate (verify generate used call).2 call.window w := by
  have hold : (w, generate (w * totpStep)) ∈ used ∨ (w : ℤ) < call.window - replayWindowRange :=
    h.imp_right fun hlt => by omega
  obtain ⟨-, hused⟩ | ⟨w', -, -, -, hused⟩ := verify_cases generate used call
  · rw [hused]
    exact hold
  · rw [hused, Spent, Finset.mem_filter, Finset.mem_insert]
    rcases hold with hold | hold
    · by_cases hge : (w : ℤ) ≥ call.window - replayWindowRange
      · exact .inl ⟨.inr hold, hge⟩
      · exact .inr (not_le.1 hge)
    · exact .inr hold

theorem spent_of_consumes (h : consumes generate used call = some w) :
    Spent generate (TotpManager.verify generate used call).2 call.window w := by
  obtain ⟨hnone, -⟩ | ⟨w', hw', htarget, -, hused⟩ := verify_cases generate used call
  · rw [hnone] at h
    cases h
  · obtain rfl : w' = w := Option.some.inj (hw'.symm.trans h)
    have hbounds := target_bounds htarget
    rw [hused]
    refine .inl (Finset.mem_filter.2 ⟨Finset.mem_insert_self _ _, ?_⟩)
    show (w' : ℤ) ≥ call.window - replayWindowRange
    unfold replayWindowRange
    omega

theorem window_le {a b : Call} (h : a.now ≤ b.now) : a.window ≤ b.window :=
  Int.ediv_le_ediv (by decide) h

/-- A spent window stays spent, and every window that is consumed was not. -/
theorem consumed_spec {calls : List Call} (h : calls.Pairwise fun a b => a.now ≤ b.now)
    (used : Finset (ℕ × String)) :
    (consumed generate used calls).Nodup ∧
      ∀ t w, Spent generate used t w → (∀ call ∈ calls, t ≤ call.window) →
        w ∉ consumed generate used calls := by
  induction calls generalizing used with
  | nil => exact ⟨List.nodup_nil, fun _ _ _ _ hw => nomatch hw⟩
  | cons call calls ih =>
    obtain ⟨hlater, hrest⟩ := List.pairwise_cons.1 h
    have hwindow : ∀ later ∈ calls, call.window ≤ later.window := fun later hmem =>
      window_le (hlater later hmem)
    obtain ⟨hnodup, hspent⟩ := ih hrest (TotpManager.verify generate used call).2
    constructor
    · refine List.nodup_append.2 ⟨?_, hnodup, ?_⟩
      · cases consumes generate used call with
        | none => exact List.nodup_nil
        | some w => exact List.nodup_singleton w
      · intro w hw w' hw' heq
        rw [Option.mem_toList] at hw
        exact hspent _ w (spent_of_consumes hw) hwindow (heq ▸ hw')
    · intro t w hw ht hmem
      have htcall := ht call List.mem_cons_self
      rcases List.mem_append.1 hmem with hmem | hmem
      · exact hw.not_consumes htcall (Option.mem_toList.1 hmem)
      · exact hspent _ w (hw.verify htcall) hwindow hmem

/-- A record is collected only if its window is too old for this call and every later one. -/
theorem target_ne_of_collected {e : ℕ × String} (he : e ∈ used)
    (hcollected : e ∉ (TotpManager.verify generate used call).2) {later : Call}
    (hlater : call.now ≤ later.now) : later.target generate ≠ some e.1 := by
  intro htarget
  have hbounds := target_bounds htarget
  have hwindow := window_le hlater
  obtain ⟨-, hused⟩ | ⟨w, -, -, -, hused⟩ := verify_cases generate used call
  · rw [hused] at hcollected
    exact hcollected he
  · rw [hused] at hcollected
    have hold : ¬(e.1 : ℤ) ≥ call.window - replayWindowRange := fun hge =>
      hcollected (Finset.mem_filter.2 ⟨Finset.mem_insert_of_mem he, hge⟩)
    unfold replayWindowRange at hold
    omega

theorem run_append_singleton (pre : List Call) (call : Call) :
    run generate used (pre ++ [call]) = (verify generate (run generate used pre) call).2 := by
  rw [run, List.foldl_append]
  rfl

/-- **Codes are single-use**: no window is consumed twice, and a record is discarded only when
    its window can no longer be accepted. -/
theorem verify_single_use (generate : ℕ → String) (calls : List Call)
    (h : calls.Pairwise fun a b => a.now ≤ b.now) :
    (consumed generate ∅ calls).Nodup ∧
      ∀ pre call post, calls = pre ++ call :: post →
        ∀ e ∈ run generate ∅ pre, e ∉ run generate ∅ (pre ++ [call]) →
          ∀ later : Call, call.now ≤ later.now → later.target generate ≠ some e.1 := by
  refine ⟨(consumed_spec h ∅).1, ?_⟩
  intro pre call post _ e he hcollected later hlater
  rw [run_append_singleton] at hcollected
  exact target_ne_of_collected he hcollected hlater

theorem verify_single_use_twice :
    (consumed (fun time => if time < 90 then "000000" else "111111") ∅
      [⟨"000000", 30⟩, ⟨" 000000", 59⟩, ⟨"111111", 120⟩]).Nodup :=
  (verify_single_use _ _ (by decide)).1

end TotpManager

end Nexterm.Web
