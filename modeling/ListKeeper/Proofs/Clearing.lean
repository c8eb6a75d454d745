import ListKeeper.Proofs.Leftovers
import ListKeeper.Proofs.Places

/-! What an addition leaves at its own id. As long as the disk takes away what it is told to, a
write that fails leaves the file of its id as it was and no temporary file of its own, and an
addition that fails leaves no file that it wrote. Main statements: `Store.writeStep_leaves` and
`Adding.Leaves.returns`. -/
namespace ListKeeper

open FileTree

namespace Store

variable {s : Store} {t t' t₀ : FileTree} {x : Slot} {id : UInt64} {body : Bytes}

/-- At a slot is what was there at some time before, or nothing. -/
def Cleared (s : Store) (t₀ t : FileTree) (x : Slot) : Prop :=
  t.find (x.path s) = t₀.find (x.path s) ∨ t.find (x.path s) = .error .notFound

theorem remove_missing (hs : s.Plain) (h : t.remove (x.path s) = .ok t') :
    t'.find (x.path s) = .error .notFound := by
  have hopen := (remove_alters hs h).sameOpen
  obtain ⟨d, body, m, hd, hg, rfl⟩ := (remove_iff hs).mp h
  apply (hd.congr hopen).missing hs
  rw [get?_erase _ _ _ (spot_ne_nil s d x), if_pos rfl]

/-- Taking a file away from a disk that does so clears its slot. -/
theorem cleared_of_removed (hs : s.Plain) (disk : Disk) (hdisk : disk.fault = none)
    (h : t.find (x.path s) = t₀.find (x.path s) ∨ ∃ body, s.Has t x body) :
    s.Cleared t₀ (match attempt disk (t.remove (x.path s)) with
      | .ok t' => t'
      | .error _ => t) x := by
  simp only [attempt, hdisk]
  cases hremove : t.remove (x.path s) with
  | ok t' => exact .inr (remove_missing hs hremove)
  | error cause =>
    rcases h with hsame | ⟨body, hhas⟩
    · exact .inl hsame
    -- a file that is there can be taken away
    · obtain ⟨t', ht'⟩ := remove_ok hs hhas
      rw [ht'] at hremove
      cases hremove

end Store

/-- What a write has made of its two files since some time before it began. -/
def Writing.Leaves (s : Store) (t₀ t : FileTree) (id : UInt64) : Writing → Prop
  | .create => ∀ x : Slot, x.id = id → t.find (x.path s) = t₀.find (x.path s)
  | .discard _ => t.find (s.pathFor id) = t₀.find (s.pathFor id) ∧
    (t.find (s.tempPathFor id) = t₀.find (s.tempPathFor id) ∨ ∃ body, s.Has t (.temp id) body)
  | .done (.ok ()) => t.find (s.tempPathFor id) = .error .notFound
  | .done (.error _) => t.find (s.pathFor id) = t₀.find (s.pathFor id) ∧ s.Cleared t₀ t (.temp id)
  | _ => t.find (s.pathFor id) = t₀.find (s.pathFor id)

namespace Store

variable {s : Store} {t t₀ : FileTree} {id : UInt64} {body : Bytes}

theorem leaves_fillOrSync (rest : Bytes) (h : t.find (s.pathFor id) = t₀.find (s.pathFor id)) :
    (fillOrSync rest).Leaves s t₀ t id := by
  unfold fillOrSync
  split <;> exact h

theorem leaves_afterFault (disk : Disk) (rest : Bytes) (cause : IoError)
    (h : t.find (s.pathFor id) = t₀.find (s.pathFor id)) {front : Bytes}
    (hhas : s.Has t (.temp id) front) :
    (afterFault disk body rest cause).Leaves s t₀ t id := by
  unfold afterFault
  split
  · exact h
  · exact ⟨h, .inr ⟨front, hhas⟩⟩

/-- A step of a write leaves what it should, where a disk that is to take a file away does so. -/
theorem writeStep_leaves (hs : s.Plain) (disk : Disk) (w : Writing)
    {whole : Prop} (hp : s.Progress whole t id body w) (h : w.Leaves s t₀ t id)
    (hdisk : ∀ cause, w = .discard cause → disk.fault = none) :
    (s.writeStep id body disk t w).2.Leaves s t₀ (s.writeStep id body disk t w).1 id := by
  have hother (t' : FileTree) (hk : s.Keeps t t' [.temp id]) :
      t'.find (s.pathFor id) = t.find (s.pathFor id) := hk (.file id) (by simp)
  cases w with
  | create =>
    have hfile : t.find (s.pathFor id) = t₀.find (s.pathFor id) := h (.file id) rfl
    have htemp : t.find (s.tempPathFor id) = t₀.find (s.tempPathFor id) := h (.temp id) rfl
    simp only [writeStep]
    split
    · rename_i t' ht'
      -- only the temporary file was made, so the file of the id is as it was
      have hk := (create_slot s hs t t' (.temp id) _ (ok_of_attempt disk _ t' ht')).2
      exact leaves_fillOrSync body ((hother t' hk).trans hfile)
    · exact ⟨hfile, .inl htemp⟩
  | fill rest =>
    obtain ⟨front, -, hhas⟩ := hp
    simp only [writeStep]
    split
    · rename_i t' ht'
      have hk := (append_slot s hs t t' (.temp id) _ _ (ok_of_attempt disk _ t' ht')).1
      exact leaves_fillOrSync _ ((hother t' hk).trans h)
    · exact leaves_afterFault disk rest _ h hhas
  | sync =>
    simp only [writeStep]
    split
    · obtain rfl := Except.ok.inj (ok_of_attempt disk _ _ ‹_›)
      exact h
    · exact ⟨h, .inr hp.has⟩
  | publish =>
    simp only [writeStep]
    split
    · rename_i t' ht'
      exact (rename_moves (x := .temp id) (y := .file id) hs (by simp) hp.isDirectory
        (ok_of_attempt disk _ t' ht')).2
    · exact ⟨h, .inr hp.has⟩
  | discard cause =>
    obtain ⟨hfile, htemp⟩ := h
    have hfault := hdisk cause rfl
    have hcleared := cleared_of_removed (x := .temp id) hs disk hfault htemp
    simp only [Slot.path_temp] at hcleared
    simp only [writeStep]
    split
    · rename_i t' ht'
      rw [ht'] at hcleared
      have hk := remove_slot s hs t t' (.temp id) (ok_of_attempt disk _ t' ht')
      exact ⟨(hother t' hk).trans hfile, hcleared⟩
    · rename_i cause' hcause'
      rw [hcause'] at hcleared
      exact ⟨hfile, hcleared⟩
  | done outcome => exact h

end Store

def Adding.clears : Adding → Bool
  | .write _ _ (.discard _) => true
  | .withdraw _ => true
  | _ => false

/-- What an addition has made of the files of its id since it was called for. -/
def Adding.Leaves (s : Store) (t₀ t : FileTree) : Adding → Prop
  | .fetch id _ => ∀ x : Slot, x.id = id → t.find (x.path s) = t₀.find (x.path s)
  | .write id _ w => w.Leaves s t₀ t id
  | .insert id _ => t.find (s.tempPathFor id) = .error .notFound
  | .withdraw id => t.find (s.tempPathFor id) = .error .notFound ∧ ∃ body, s.Has t (.file id) body
  | _ => True

namespace Adding

variable {s : Store} {t t' t₀ : FileTree} {xs : List Slot} {stage : Adding}

/-- An addition does not mind what happens to the files of other ids. -/
theorem Leaves.keep (h : stage.Leaves s t₀ t) (hk : s.Keeps t t' xs)
    (hx : ∀ id, stage.id? = some id → ∀ x ∈ xs, x.id ≠ id) : stage.Leaves s t₀ t' := by
  have hfind (x : Slot) (hid : stage.id? = some x.id) :
      t'.find (x.path s) = t.find (x.path s) := hk x fun hmem => hx x.id hid x hmem rfl
  have hhas (x : Slot) (hid : stage.id? = some x.id) (body : Bytes) (h : s.Has t x body) :
      s.Has t' x body := hk.has x (fun hmem => hx x.id hid x hmem rfl) body h
  cases stage with
  | fetch id f => exact fun x hid => (hfind x (by rw [hid]; rfl)).trans (h x hid)
  | write id body w =>
    have hfile : t'.find (s.pathFor id) = t.find (s.pathFor id) := hfind (.file id) rfl
    have htemp : t'.find (s.tempPathFor id) = t.find (s.tempPathFor id) := hfind (.temp id) rfl
    cases w with
    | create => exact fun x hid => (hfind x (by rw [hid]; rfl)).trans (h x hid)
    | discard cause =>
      refine ⟨hfile.trans h.1, ?_⟩
      rcases h.2 with hsame | ⟨body, hbody⟩
      · exact .inl (htemp.trans hsame)
      · exact .inr ⟨body, hhas (.temp id) rfl body hbody⟩
    | done outcome =>
      cases outcome with
      | ok u => exact htemp.trans h
      | error cause => exact ⟨hfile.trans h.1, h.2.imp htemp.trans htemp.trans⟩
    | _ => exact hfile.trans h
  | insert id body => exact (hfind (.temp id) rfl).trans h
  | withdraw id =>
    obtain ⟨htemp, body, hbody⟩ := h
    exact ⟨(hfind (.temp id) rfl).trans htemp, body, hhas (.file id) rfl body hbody⟩
  | _ => trivial

/-- A step of an addition leaves what it should, where a disk that is to take a file away does
so. -/
theorem Leaves.step {c : Candidate} {m : Moment} {sys : System} {out : System × Adding}
    (h : stage.Leaves sys.store t₀ sys.tree) (hsteps : stage.Steps c m sys out)
    (hs : sys.store.Plain) {whole : Prop} (hf : stage.Filled whole sys.store sys.tree)
    (hnew : stage = .mint → ∀ x : Slot, x.id = sys.ids.next m.now →
      sys.tree.find (x.path sys.store) = t₀.find (x.path sys.store))
    (hdisk : stage.clears = true → m.disk.fault = none) :
    out.2.Leaves sys.store t₀ out.1.tree := by
  cases hsteps with
  | quiet stage stage' s' hquiet hstill =>
    rw [hstill.tree]
    cases hquiet with
    | fetched id body => exact h
    | written id body => exact h
    -- the file that is to be taken away is the one that was written
    | doubled id body htaken => exact ⟨h, hf.has⟩
    | queued id => exact h
    | held id => exact h
    | requested id => exact h
    | answered id => exact h
    | _ => trivial
  | minted => exact hnew rfl
  | writing id body w =>
    apply Store.writeStep_leaves hs m.disk w hf h
    rintro cause rfl
    exact hdisk rfl
  | inserted id body hfree => trivial
  | withdrawn id => trivial

/-- An addition that ends in an error leaves nothing of its own at its id. -/
theorem Leaves.returns {c : Candidate} {m : Moment} {sys : System} {out : System × Adding}
    (h : stage.Leaves sys.store t₀ sys.tree) (hsteps : stage.Steps c m sys out)
    (hs : sys.store.Plain) (hdisk : stage.clears = true → m.disk.fault = none) (cause : SyncError)
    (hout : out.2 = .done (.error cause)) (x : Slot) (hid : stage.id? = some x.id) :
    sys.store.Cleared t₀ out.1.tree x := by
  cases hsteps with
  | quiet stage stage' s' hquiet hstill =>
    rw [hstill.tree]
    cases hquiet with
    | unfetched id cause' =>
      obtain rfl : id = x.id := Option.some.inj hid
      exact .inl (h x rfl)
    | unwritten id body cause' =>
      obtain rfl : id = x.id := Option.some.inj hid
      cases x with
      | file id => exact .inl h.1
      | temp id => exact h.2
    | refused htaken => cases hid
    | done outcome => cases hid
    | _ => cases hout
  | withdrawn id =>
    obtain rfl : id = x.id := Option.some.inj hid
    obtain ⟨htemp, hfile⟩ := h
    cases x with
    | file id =>
      rw [System.discard_tree]
      exact Store.cleared_of_removed hs m.disk (hdisk rfl) (.inr hfile)
    | temp id =>
      have hkept := sys.discard_keeps hs m.disk id (.temp id) (by simp)
      exact .inr (hkept.trans htemp)
  | minted => cases hout
  | writing id body w => cases hout
  | inserted id body hfree => cases hout

end Adding
end ListKeeper
