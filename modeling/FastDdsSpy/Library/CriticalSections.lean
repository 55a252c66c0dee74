import FastDdsSpy.Library.Channels

/-! # Critical sections that write

Threads write blocks of lines to one log under one lock, and others write without it. The blocks
come out whole, one after the other, and each as often as it was requested. -/

namespace CriticalSections

open PastTime

variable {κ α : Type*}

/-- The blocks that wait for the lock, the holder of the lock with the lines that it has left, and
the log. A line that was written without the lock has no owner. -/
structure State (κ α : Type*) where
  waiting : List (κ × List α)
  holder : Option (κ × List α)
  log : List (Option κ × α)

inductive Step (κ α : Type*)
  | request (block : κ × List α)
  | enter (block : κ × List α)
  | write
  | leave
  | other (line : α)

def init : State κ α := ⟨[], none, []⟩

variable [DecidableEq κ] [DecidableEq α]

/-- One step. A thread that enters while the lock is held, a write without a line left and a
leave with one do not occur: they leave the state as it is. -/
def step (s : State κ α) : Step κ α → State κ α
  | .request block => { s with waiting := s.waiting ++ [block] }
  | .enter block =>
      if s.holder = none ∧ block ∈ s.waiting then
        { s with waiting := s.waiting.erase block, holder := some block }
      else s
  | .write =>
      match s.holder with
      | some (id, line :: rest) =>
          { s with holder := some (id, rest), log := s.log ++ [(some id, line)] }
      | _ => s
  | .leave =>
      match s.holder with
      | some (_, []) => { s with holder := none }
      | _ => s
  | .other line => { s with log := s.log ++ [(none, line)] }

def Step.requested : Step κ α → Option (κ × List α)
  | .request block => some block
  | _ => none

/-- The lines of the log that have an owner. -/
def ownedLines (log : List (Option κ × α)) : List (κ × α) :=
  log.filterMap fun line => line.1.map fun id => (id, line.2)

/-- The lines of a block, with their owner. -/
def tagged (block : κ × List α) : List (κ × α) := block.2.map fun line => (block.1, line)

/-- A block that is being written: its owner, the lines written and the lines left. -/
structure Current (κ α : Type*) where
  id : κ
  written : List α
  left : List α

def Current.block (c : Current κ α) : κ × List α := (c.id, c.written ++ c.left)

/-- The owned lines are whole blocks and the first part of the block of the holder; these blocks
and those that wait are the ones requested. -/
structure InBlocks (requested : List (κ × List α)) (s : State κ α)
    (printed : List (κ × List α)) (current : Option (Current κ α)) : Prop where
  lines_eq : ownedLines s.log = printed.flatMap tagged ++
    current.toList.flatMap (fun c => tagged (c.id, c.written))
  holder_eq : s.holder = current.map (fun c => (c.id, c.left))
  perm : requested.Perm (printed ++ current.toList.map Current.block ++ s.waiting)

variable {requested : List (κ × List α)} {s : State κ α} {printed : List (κ × List α)}
  {current : Option (Current κ α)}

omit [DecidableEq κ] [DecidableEq α] in
theorem ownedLines_concat (log : List (Option κ × α)) (line : Option κ × α) :
    ownedLines (log ++ [line]) =
      ownedLines log ++ (line.1.map fun id => (id, line.2)).toList := by
  rw [ownedLines, List.filterMap_append]
  cases h : line.1 <;> simp [ownedLines, h]

theorem InBlocks.request (h : InBlocks requested s printed current) (block : κ × List α) :
    InBlocks (requested ++ [block]) (step s (.request block)) printed current := by
  refine ⟨h.lines_eq, h.holder_eq, ?_⟩
  rw [step, ← List.append_assoc]
  exact h.perm.append_right [block]

theorem InBlocks.enter (h : InBlocks requested s printed current) {block : κ × List α}
    (hfree : s.holder = none) (hmem : block ∈ s.waiting) :
    InBlocks requested (step s (.enter block)) printed (some ⟨block.1, [], block.2⟩) := by
  have hcurrent : current = none := by
    have hholder := h.holder_eq
    rw [hfree] at hholder
    exact Option.map_eq_none_iff.mp hholder.symm
  subst hcurrent
  rw [step, if_pos ⟨hfree, hmem⟩]
  refine ⟨by simpa [tagged] using h.lines_eq, rfl, h.perm.trans ?_⟩
  have herase := (List.perm_cons_erase hmem).append_left printed
  simpa [Current.block] using herase

theorem InBlocks.write {c : Current κ α} (h : InBlocks requested s printed (some c)) {line : α}
    {rest : List α} (hleft : c.left = line :: rest) :
    InBlocks requested (step s .write) printed (some ⟨c.id, c.written ++ [line], rest⟩) := by
  have hholder : s.holder = some (c.id, line :: rest) := by rw [h.holder_eq, Option.map_some, hleft]
  rw [step, hholder]
  refine ⟨?_, rfl, ?_⟩
  · rw [ownedLines_concat, h.lines_eq]
    simp [tagged]
  · have hperm := h.perm
    simpa [Current.block, hleft] using hperm

theorem InBlocks.leave {c : Current κ α} (h : InBlocks requested s printed (some c))
    (hleft : c.left = []) : InBlocks requested (step s .leave) (printed ++ [c.block]) none := by
  have hholder : s.holder = some (c.id, []) := by rw [h.holder_eq, Option.map_some, hleft]
  have hblock : c.block = (c.id, c.written) := by rw [Current.block, hleft, List.append_nil]
  rw [step, hholder]
  refine ⟨?_, rfl, ?_⟩
  · rw [h.lines_eq, hblock]
    simp
  · have hperm := h.perm
    simpa using hperm

theorem InBlocks.other (h : InBlocks requested s printed current) (line : α) :
    InBlocks requested (step s (.other line)) printed current := by
  refine ⟨?_, h.holder_eq, h.perm⟩
  rw [step, ownedLines_concat, h.lines_eq]
  simp

/-- One step keeps the log in blocks. -/
theorem InBlocks.step (h : InBlocks requested s printed current) (e : Step κ α) :
    ∃ printed current,
      InBlocks (requested ++ e.requested.toList) (step s e) printed current := by
  cases e with
  | request block => exact ⟨printed, current, h.request block⟩
  | enter block =>
      simp only [Step.requested, Option.toList_none, List.append_nil]
      by_cases hcan : s.holder = none ∧ block ∈ s.waiting
      · exact ⟨_, _, h.enter hcan.1 hcan.2⟩
      · rw [CriticalSections.step, if_neg hcan]
        exact ⟨_, _, h⟩
  | write =>
      simp only [Step.requested, Option.toList_none, List.append_nil]
      cases current with
      | none =>
          have hholder : s.holder = none := h.holder_eq
          rw [CriticalSections.step, hholder]
          exact ⟨_, _, h⟩
      | some c =>
          cases hleft : c.left with
          | cons line rest => exact ⟨_, _, h.write hleft⟩
          | nil =>
              have hholder : s.holder = some (c.id, []) := by
                rw [h.holder_eq, Option.map_some, hleft]
              rw [CriticalSections.step, hholder]
              exact ⟨_, _, h⟩
  | leave =>
      simp only [Step.requested, Option.toList_none, List.append_nil]
      cases current with
      | none =>
          have hholder : s.holder = none := h.holder_eq
          rw [CriticalSections.step, hholder]
          exact ⟨_, _, h⟩
      | some c =>
          cases hleft : c.left with
          | nil => exact ⟨_, _, h.leave hleft⟩
          | cons line rest =>
              have hholder : s.holder = some (c.id, line :: rest) := by
                rw [h.holder_eq, Option.map_some, hleft]
              rw [CriticalSections.step, hholder]
              exact ⟨_, _, h⟩
  | other line =>
      simp only [Step.requested, Option.toList_none, List.append_nil]
      exact ⟨_, _, h.other line⟩

/-- Every run of the threads keeps the log in blocks. -/
theorem inBlocks_run (es : List (Step κ α)) : ∃ printed current,
    InBlocks (es.filterMap Step.requested) (run CriticalSections.step init es) printed current := by
  induction es using List.reverseRecOn with
  | nil => exact ⟨[], none, by simp [ownedLines, init], rfl, by simp [init]⟩
  | append_singleton es e ih =>
      obtain ⟨printed, current, h⟩ := ih
      have hlast : [e].filterMap Step.requested = e.requested.toList := by cases e <;> rfl
      rw [run_append, List.filterMap_append, hlast]
      exact h.step e

end CriticalSections
