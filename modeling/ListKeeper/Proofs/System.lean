import ListKeeper.Adding
import ListKeeper.Refreshing

/-! What the parts of a step leave alone. Taking a file away changes the files only, a deletion the
registry and the journal. -/
namespace ListKeeper

namespace System

variable (s : System)

theorem discard_eq (disk : Disk) (id : UInt64) : ∃ t, s.discard disk id = { s with tree := t } := by
  unfold discard
  split
  · exact ⟨_, rfl⟩
  · exact ⟨s.tree, rfl⟩

@[simp] theorem discard_store (disk : Disk) (id : UInt64) :
    (s.discard disk id).store = s.store := by
  obtain ⟨t, ht⟩ := s.discard_eq disk id
  rw [ht]

@[simp] theorem discard_registry (disk : Disk) (id : UInt64) :
    (s.discard disk id).registry = s.registry := by
  obtain ⟨t, ht⟩ := s.discard_eq disk id
  rw [ht]

@[simp] theorem discard_ids (disk : Disk) (id : UInt64) : (s.discard disk id).ids = s.ids := by
  obtain ⟨t, ht⟩ := s.discard_eq disk id
  rw [ht]

theorem discard_journal (disk : Disk) (id : UInt64) : (s.discard disk id).journal = s.journal := by
  obtain ⟨t, ht⟩ := s.discard_eq disk id
  rw [ht]

/-- A deletion changes the registry and the journal only. -/
theorem delete_eq (url : String) : ∃ es journal,
    (s.delete url).2 = { s with registry := ⟨es⟩, journal := journal } ∧
      es.Sublist s.registry.entries := by
  unfold delete
  split
  · exact ⟨s.registry.entries, s.journal, rfl, List.Sublist.refl _⟩
  · exact ⟨_, _, rfl, List.eraseP_sublist⟩

end System
end ListKeeper
