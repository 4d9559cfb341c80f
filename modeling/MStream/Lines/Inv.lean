import MStream.Lines
import MStream.Reach

/-!
The line lists of `struct pblk_line_mgmt` over whole runs of the line manager.

`LinesInv` is what the list code relies on: a line is on at most one list and
at most once on it (a `list_add` of a node that is already on a list corrupts
both), a line on a list is in the state the list is for, and `nr_free_lines`
counts the free list. It also holds what GC relies on (`LineOk`): a closed line,
or one under GC, is in the band `pblk_line_gc_list` last filed it under, and a
line that is open, closed or under GC still holds a reference: the one
`pblk_line_prepare` gave it, beside one for each buffered sector
`pblk_map_page_data` mapped onto it.

Every operation of `MStream.Lines` keeps it under what its caller guarantees
(`LineOp.Allowed`), so it holds in every state reachable from
`pblk_lines_init`. Two consequences: the `-EAGAIN` path of `pblk_line_get`,
which files a line on `corrupt_list`, is dead; and the failure path of
`pblk_gc_line_prepare_ws` hands its victim to the free list.
-/

namespace MStream.Lines

open Machine Reach LineMgmt

def listState : LineList → LineState
  | .free => .free
  | .bad => .bad
  | .corrupt => .corrupt
  | .gcRead => .gc
  | .gcFull | .gcHigh | .gcMid | .gcLow | .gcEmpty => .closed

theorem listState_ne_opened (l : LineList) : listState l ≠ .opened := by
  cases l <;> decide

theorem listState_eq_gc {l : LineList} (gc : listState l = .gc) : l = .gcRead := by
  cases l <;> simp_all [listState]

/-- `l_mg->gc_lists`, the lists the second loop of `pblk_gc_run` takes its
victims from. -/
def gcLists : List LineList := [.gcHigh, .gcMid, .gcLow]

def Unlisted (s : LineMgmt) (id : Nat) : Prop := ∀ l, id ∉ s.lists l

/-- The list `pblk_line_gc_list` files a line under, from the three fields it
reads: `none` when the line's band is the one it was filed under. -/
def gcFiling (lm : LineMeta) (group : GcGroup) (vsc sec : Nat) : Option LineList :=
  let file (g : GcGroup) (l : LineList) : Option LineList := if group = g then none else some l
  if vsc = 0 then file .full .gcFull
  else if vsc < lm.highThrs then file .high .gcHigh
  else if vsc < lm.midThrs then file .mid .gcMid
  else if vsc < sec then file .low .gcLow
  else if vsc = sec then file .empty .gcEmpty
  else some .corrupt

/-- What GC relies on for a line in each state. -/
def LineOk (lm : LineMeta) (line : Line) : Prop :=
  match line.state with
  | .opened => 1 ≤ line.ref
  | .closed | .gc => 1 ≤ line.ref ∧ gcFiling lm line.gcGroup line.vsc line.secInLine = none
  | .free | .bad | .corrupt => True

structure LinesInv (lm : LineMeta) (s : LineMgmt) : Prop where
  nodup : ∀ l, (s.lists l).Nodup
  apart : ∀ {l l' : LineList} {id : Nat}, id ∈ s.lists l → id ∈ s.lists l' → l = l'
  filed : ∀ {l : LineList} {id : Nat}, id ∈ s.lists l → (s.lines id).state = listState l
  count : s.nrFreeLines = (s.lists .free).length
  ok : ∀ id, LineOk lm (s.lines id)

variable {lm : LineMeta}

/-! ## Filing a line -/

section Filing

@[simp] theorem gcList_fst (line : Line) :
    (pblkLineGcList lm line).1 = gcFiling lm line.gcGroup line.vsc line.secInLine := by
  simp only [pblkLineGcList, gcFiling]
  split_ifs <;> rfl

theorem gcList_ne_free (line : Line) : (pblkLineGcList lm line).1 ≠ some .free := by
  simp only [gcList_fst, gcFiling]
  split_ifs <;> simp

theorem gcList_filed {line : Line} {l : LineList} (closed : line.state = .closed)
    (filed : (pblkLineGcList lm line).1 = some l) : (pblkLineGcList lm line).2.state = listState l := by
  simp only [pblkLineGcList] at filed ⊢
  split_ifs at filed ⊢ <;> cases filed <;> simp_all [listState]

theorem gcList_settled {line : Line} (closed : (pblkLineGcList lm line).2.state = .closed) :
    gcFiling lm (pblkLineGcList lm line).2.gcGroup (pblkLineGcList lm line).2.vsc
      (pblkLineGcList lm line).2.secInLine = none := by
  simp only [pblkLineGcList] at closed ⊢
  split_ifs at closed ⊢ <;> simp_all [gcFiling] <;> split_ifs <;> first | rfl | omega

@[simp] theorem gcList_ref (line : Line) : (pblkLineGcList lm line).2.ref = line.ref := by
  simp only [pblkLineGcList]
  split_ifs <;> rfl

theorem gcList_ok {line : Line} (closed : line.state = .closed) (held : 1 ≤ line.ref) :
    LineOk lm (pblkLineGcList lm line).2 := by
  have settled := @gcList_settled lm line
  unfold LineOk
  split
  · next opened =>
    simp only [pblkLineGcList] at opened
    split_ifs at opened <;> simp_all
  · next closed' => exact ⟨by simpa using held, settled closed'⟩
  · next gc =>
    simp only [pblkLineGcList] at gc
    split_ifs at gc <;> simp_all
  · trivial
  · trivial
  · trivial

end Filing

/-! ## The list primitives -/

section Primitives

variable {s s' : LineMgmt} {id x : Nat} {l : LineList}

theorem LinesInv.unlisted_of_opened (inv : LinesInv lm s) (opened : (s.lines id).state = .opened) :
    Unlisted s id :=
  fun l mem => listState_ne_opened l ((inv.filed mem).symm.trans opened)

theorem LinesInv.sublists (inv : LinesInv lm s) (sub : ∀ l, (s'.lists l).Sublist (s.lists l))
    (lines : s'.lines = s.lines) (count : s'.nrFreeLines = (s'.lists .free).length) : LinesInv lm s' where
  nodup l := (inv.nodup l).sublist (sub l)
  apart mem mem' := inv.apart ((sub _).subset mem) ((sub _).subset mem')
  filed mem := lines ▸ inv.filed ((sub _).subset mem)
  count := count
  ok id := lines ▸ inv.ok id

theorem LinesInv.congr (inv : LinesInv lm s) (lines : s'.lines = s.lines) (lists : s'.lists = s.lists)
    (count : s'.nrFreeLines = s.nrFreeLines) : LinesInv lm s' :=
  inv.sublists (fun l => lists ▸ List.Sublist.refl _) lines (by rw [count, lists, inv.count])

theorem LinesInv.modifyLine (inv : LinesInv lm s) {f : Line → Line}
    (keeps : (f (s.lines id)).state = (s.lines id).state ∨ Unlisted s id) (ok : LineOk lm (f (s.lines id))) :
    LinesInv lm (s.modifyLine id f) where
  nodup := inv.nodup
  apart := inv.apart
  filed {l x} mem := by
    by_cases same : x = id
    · subst same
      rcases keeps with kept | un
      · simpa [kept] using inv.filed mem
      · exact absurd mem (un l)
    · simpa [same] using inv.filed mem
  count := inv.count
  ok x := by
    by_cases same : x = id
    · subst same
      simpa using ok
    · simpa [same] using inv.ok x

theorem del_sublist (s : LineMgmt) (l : LineList) (id : Nat) (l' : LineList) :
    ((s.del l id).lists l').Sublist (s.lists l') := by
  rw [del_lists]
  split
  · next same => exact same ▸ List.erase_sublist
  · exact List.Sublist.refl _

theorem LinesInv.del (inv : LinesInv lm s) (notFree : l ≠ .free) : LinesInv lm (s.del l id) :=
  inv.sublists (del_sublist s l id) rfl (by simp [Ne.symm notFree, inv.count])

theorem LinesInv.delFree (inv : LinesInv lm s) (mem : id ∈ s.lists .free) :
    LinesInv lm { s.del .free id with nrFreeLines := s.nrFreeLines - 1 } :=
  inv.sublists (del_sublist s .free id) rfl (by
    have pos := List.length_pos_of_mem mem
    simp [inv.count, List.length_erase_of_mem mem]
    omega)

theorem LinesInv.del_unlisted (inv : LinesInv lm s) (mem : id ∈ s.lists l) : Unlisted (s.del l id) id := by
  intro l' mem'
  rw [del_lists] at mem'
  split at mem'
  · next same =>
    subst same
    exact (inv.nodup l').not_mem_erase mem'
  · next other => exact other (inv.apart mem' mem)

theorem Unlisted.del (un : Unlisted s x) (l : LineList) (id : Nat) : Unlisted (s.del l id) x :=
  fun l' mem => un l' ((del_sublist s l id l').subset mem)

theorem mem_addTail_lists : x ∈ (s.addTail l id).lists l' ↔ x ∈ s.lists l' ∨ l' = l ∧ x = id := by
  rw [addTail_lists]
  split <;> simp_all

theorem Unlisted.addTail (un : Unlisted s x) (other : x ≠ id) (l : LineList) : Unlisted (s.addTail l id) x := by
  intro l' mem
  rcases mem_addTail_lists.mp mem with old | ⟨-, same⟩
  · exact un l' old
  · exact other same

theorem LinesInv.file (inv : LinesInv lm s) (un : Unlisted s id) (state : (s.lines id).state = listState l)
    (lines : s'.lines = s.lines) (lists : s'.lists = (s.addTail l id).lists)
    (count : s'.nrFreeLines = (s'.lists .free).length) : LinesInv lm s' where
  nodup l' := by
    rw [lists, addTail_lists]
    split
    · next same =>
      subst same
      rw [← List.concat_eq_append]
      exact (inv.nodup l').concat (un l')
    · exact inv.nodup l'
  apart {l1 l2 y} mem1 mem2 := by
    rw [lists, mem_addTail_lists] at mem1 mem2
    rcases mem1 with old1 | ⟨rfl, new1⟩
    · rcases mem2 with old2 | ⟨-, new2⟩
      · exact inv.apart old1 old2
      · exact absurd (new2 ▸ old1) (un _)
    · rcases mem2 with old2 | ⟨rfl, -⟩
      · exact absurd (new1 ▸ old2) (un _)
      · rfl
  filed {l' y} mem := by
    rw [lists, mem_addTail_lists] at mem
    rw [lines]
    rcases mem with old | ⟨rfl, rfl⟩
    · exact inv.filed old
    · exact state
  count := count
  ok id := lines ▸ inv.ok id

theorem LinesInv.addTail (inv : LinesInv lm s) (un : Unlisted s id) (state : (s.lines id).state = listState l)
    (notFree : l ≠ .free) : LinesInv lm (s.addTail l id) :=
  inv.file un state rfl rfl (by simp [Ne.symm notFree, inv.count])

theorem LinesInv.unlink (inv : LinesInv lm s) (notFree : (s.lines id).state ≠ .free) :
    LinesInv lm (s.unlink id) ∧ Unlisted (s.unlink id) id := by
  have offFree : id ∉ s.lists .free := fun mem => notFree (inv.filed mem)
  refine ⟨inv.sublists (fun l => List.erase_sublist) rfl ?_, fun l => (inv.nodup l).not_mem_erase⟩
  show s.nrFreeLines = ((s.lists .free).erase id).length
  rw [List.erase_of_not_mem offFree, inv.count]

theorem LinesInv.markBad (inv : LinesInv lm s) (un : Unlisted s id) : LinesInv lm (markBad s id) :=
  (inv.modifyLine (.inr un) (by simp [LineOk])).addTail un (by simp [listState]) (by decide)

theorem LinesInv.touch (inv : LinesInv lm s) {f : Line → Line} (state : ∀ l, (f l).state = l.state)
    (ok : ∀ l, LineOk lm l → LineOk lm (f l)) : LinesInv lm (s.modifyLine id f) :=
  inv.modifyLine (.inl (state _)) (ok _ (inv.ok id))

theorem modifyLine_state {f : Line → Line} (state : ∀ l, (f l).state = l.state) (x : Nat) :
    ((s.modifyLine id f).lines x).state = (s.lines x).state := by
  by_cases same : x = id
  · subst same
    simp [state]
  · simp [same]

theorem del_modifyLine (f : Line → Line) : (s.modifyLine id f).del l x = (s.del l x).modifyLine id f := rfl

theorem modifyLine_modifyLine (f g : Line → Line) : (s.modifyLine id f).modifyLine id g = s.modifyLine id (g ∘ f) := by
  simp [modifyLine, Function.update_idem]

theorem LineOk.vsc {line : Line} (ok : LineOk lm line) (idle : line.state = .opened ∨ line.state = .bad)
    (v : Nat) : LineOk lm { line with vsc := v } := by
  rcases idle with idle | idle <;> simp_all [LineOk]

end Primitives

/-! ## Taking lines from the free list -/

section Get

variable {env : Env} {s : LineMgmt}

/-- What `pblk_line_get` leaves: the invariant, `corrupt_list` as it was, every
line off the free list unchanged, and the line it hands out taken from the
free list and opened. -/
structure GetSpec (lm : LineMeta) (s : LineMgmt) (r : Option Nat × LineMgmt) : Prop where
  inv : LinesInv lm r.2
  corrupt : r.2.lists .corrupt = s.lists .corrupt
  frame : ∀ {x}, x ∉ s.lists .free → r.2.lines x = s.lines x
  taken : ∀ {id}, r.1 = some id → id ∈ s.lists .free ∧ (r.2.lines id).state = .opened

theorem lineGetLoop_spec {ids : List Nat} (inv : LinesInv lm s) (start : s.lists .free = ids) :
    GetSpec lm s (lineGetLoop env lm ids s) := by
  induction ids generalizing s with
  | nil => exact ⟨inv, rfl, fun _ => rfl, fun none => by simp [lineGetLoop] at none⟩
  | cons head rest ih =>
    have mem : head ∈ s.lists .free := start ▸ List.mem_cons_self
    have free : (s.lines head).state = .free := inv.filed mem
    have invT := inv.delFree mem
    have unT := inv.del_unlisted mem
    have other : ∀ {x}, x ∉ s.lists .free → x ≠ head := fun off same => off (same ▸ mem)
    simp only [lineGetLoop]
    split
    · -- every block of the line is bad: it goes to `bad_list` and the loop goes on
      show GetSpec lm s (lineGetLoop env lm rest (markBad { s.del .free head with nrFreeLines := s.nrFreeLines - 1 } head))
      have restT : (markBad { s.del .free head with nrFreeLines := s.nrFreeLines - 1 } head).lists .free = rest := by
        simp [markBad, start]
      have spec := ih (invT.markBad unT) restT
      refine ⟨spec.inv, ?_, fun off => ?_, fun got => ?_⟩
      · rw [spec.corrupt]
        simp [markBad]
      · rw [spec.frame (by rw [restT]; exact fun mem' => off (start ▸ List.mem_cons_of_mem head mem'))]
        simp [markBad, other off]
      · obtain ⟨mem', opened⟩ := spec.taken got
        rw [restT] at mem'
        exact ⟨start ▸ List.mem_cons_of_mem head mem', opened⟩
    split
    · -- `-ENOMEM`: the line goes back to the head of the free list
      show GetSpec lm s (none, { ({ s.del .free head with nrFreeLines := s.nrFreeLines - 1 } : LineMgmt).addHead .free head with
          nrFreeLines := s.nrFreeLines - 1 + 1 })
      have back : ({ ({ s.del .free head with nrFreeLines := s.nrFreeLines - 1 } : LineMgmt).addHead .free head with
          nrFreeLines := s.nrFreeLines - 1 + 1 } : LineMgmt).lists = s.lists := by
        funext l
        by_cases free : l = .free
        · subst free
          simp [start]
        · simp [free]
      exact ⟨inv.congr rfl back (by simp), by rw [back], fun _ => rfl, fun none => by simp at none⟩
    split
    · -- `-EAGAIN`: a line on the free list is free, so this branch is dead
      next notFree => exact absurd free notFree
    · have invU : LinesInv lm (({ s.del .free head with nrFreeLines := s.nrFreeLines - 1 } : LineMgmt).modifyLine head
          fun l => { l with state := .opened, ref := 1 }) := invT.modifyLine (.inr unT) (by simp [LineOk])
      refine ⟨invU, by simp, fun off => by simp [other off], fun got => ?_⟩
      cases got
      exact ⟨mem, by simp⟩

theorem lineGet_spec (env : Env) (inv : LinesInv lm s) : GetSpec lm s (pblkLineGet env lm s) :=
  lineGetLoop_spec inv rfl

theorem GetSpec.keeps {r : Option Nat × LineMgmt} (spec : GetSpec lm s r) (inv : LinesInv lm s) {x : Nat}
    (notFree : (s.lines x).state ≠ .free) : r.2.lines x = s.lines x :=
  spec.frame fun mem => notFree (inv.filed mem)

end Get

/-! ## Replacing and setting up data lines -/

section Setup

variable {env : Env} {s : LineMgmt} {line nrb : Nat}

/-- What `pblk_line_retry` and the set-up loop leave: the invariant, and the
line they hand out opened. -/
structure Handed (lm : LineMeta) (r : Option Nat × LineMgmt) : Prop where
  inv : LinesInv lm r.2
  opened : ∀ {id}, r.1 = some id → (r.2.lines id).state = .opened

@[simp] theorem retryStep_state (r x : Nat) (s : LineMgmt) :
    ((retryStep env line nrb r s).2.lines x).state = (s.lines x).state := by
  simp [retryStep, pblkLineErase, pblkLineFree, pblkRlFreeLinesDec, modifyLine_state]

theorem LinesInv.retryPass (inv : LinesInv lm s) (idle : (s.lines line).state = .opened ∨ (s.lines line).state = .bad)
    (r : Nat) : LinesInv lm (retryStep env line nrb r s).2 := by
  have tagged : LinesInv lm (s.modifyLine r fun l => { l with pstream := nrb }) :=
    inv.touch (fun _ => rfl) (fun _ ok => ok)
  have freed : LinesInv lm (pblkLineFree (s.modifyLine r fun l => { l with pstream := nrb }) line) :=
    tagged.modifyLine (.inl rfl) ((tagged.ok line).vsc (by simpa [modifyLine_state] using idle) _)
  simp only [retryStep, pblkLineErase]
  refine LinesInv.modifyLine ?_ ?_ ?_
  · exact freed.congr rfl rfl rfl
  · exact .inl rfl
  · simpa [LineOk, pblkRlFreeLinesDec] using freed.ok r

theorem lineRetry_handed (inv : LinesInv lm s) (idle : (s.lines line).state = .opened ∨ (s.lines line).state = .bad) :
    Handed lm (pblkLineRetry env lm line nrb s) := by
  have notFree : (s.lines line).state ≠ .free := by
    rcases idle with idle | idle <;> simp [idle]
  induction s using pblkLineRetry.induct env lm line nrb with
  | case1 s s' taken =>
    have spec := lineGet_spec env inv
    rw [taken] at spec
    rw [lineRetry_of_none taken]
    exact ⟨spec.inv.congr rfl rfl rfl, fun none => by simp at none⟩
  | case2 s r s' taken erased =>
    have spec := lineGet_spec env inv
    rw [taken] at spec
    have kept : s'.lines line = s.lines line := spec.keeps inv notFree
    rw [lineRetry_of_some taken, if_pos erased]
    refine ⟨spec.inv.retryPass (kept ▸ idle) r, fun got => ?_⟩
    cases got
    simpa using (spec.taken rfl).2
  | case3 s r s' taken refused ih =>
    have spec := lineGet_spec env inv
    rw [taken] at spec
    have kept : s'.lines line = s.lines line := spec.keeps inv notFree
    rw [lineRetry_of_some taken, if_neg refused]
    exact ih (spec.inv.retryPass (kept ▸ idle) r) (by simpa [kept] using idle) (by simpa [kept] using notFree)

theorem retryBad_handed {t : LineMgmt} (inv : LinesInv lm t) (opened : (t.lines line).state = .opened) :
    Handed lm (pblkLineRetry env lm line nrb (markBad t line)) :=
  lineRetry_handed (inv.markBad (inv.unlisted_of_opened opened)) (.inr (by simp [markBad]))

theorem LinesInv.initBb (inv : LinesInv lm s) (opened : (s.lines line).state = .opened) :
    LinesInv lm (lineInitBb lm s line) :=
  inv.modifyLine (.inl rfl) (by simpa [LineOk, opened] using inv.ok line)

theorem setupLoop_handed (inv : LinesInv lm s) (opened : (s.lines line).state = .opened) :
    Handed lm (setupLoop env lm nrb line s) := by
  induction line, s using setupLoop.induct env lm nrb with
  | case1 line s few s' got =>
    have handed : Handed lm (pblkLineRetry env lm line nrb (markBad s line)) := retryBad_handed inv opened
    rw [setupLoop, if_pos few]
    split
    · next heq =>
      rw [heq] at handed
      exact handed
    · next heq => rw [got] at heq; cases heq
  | case2 line s few r s' got ih =>
    have handed : Handed lm (pblkLineRetry env lm line nrb (markBad s line)) := retryBad_handed inv opened
    rw [got] at handed
    rw [setupLoop, if_pos few]
    split
    · next heq => rw [got] at heq; cases heq
    · next heq =>
      rw [got] at heq
      cases heq
      exact ih handed.inv (handed.opened rfl)
  | case3 line s few bb s' got =>
    have handed : Handed lm (pblkLineRetry env lm line nrb (markBad (lineInitBb lm s line) line)) :=
      retryBad_handed (inv.initBb opened) (by simp [lineInitBb, opened])
    rw [setupLoop, if_neg few, if_pos bb]
    split
    · next heq =>
      rw [heq] at handed
      exact handed
    · next heq => rw [got] at heq; cases heq
  | case4 line s few bb r s' got ih =>
    have handed : Handed lm (pblkLineRetry env lm line nrb (markBad (lineInitBb lm s line) line)) :=
      retryBad_handed (inv.initBb opened) (by simp [lineInitBb, opened])
    rw [got] at handed
    rw [setupLoop, if_neg few, if_pos bb]
    split
    · next heq => rw [got] at heq; cases heq
    · next heq =>
      rw [got] at heq
      cases heq
      exact ih handed.inv (handed.opened rfl)
  | case5 line s few bb =>
    rw [setupLoop, if_neg few, if_neg bb]
    exact ⟨inv.initBb opened, fun got => by cases got; simp [lineInitBb, opened]⟩


theorem LinesInv.erase (inv : LinesInv lm s) (id : Nat) : LinesInv lm (pblkLineErase env s id).2 := by
  simp only [pblkLineErase]
  refine inv.touch ?_ ?_
  · intro l
    rfl
  · exact fun _ ok => ok

@[simp] theorem lineErase_state (id x : Nat) (s : LineMgmt) :
    ((pblkLineErase env s id).2.lines x).state = (s.lines x).state := by
  simp [pblkLineErase, modifyLine_state]

theorem LinesInv.getFirstData (inv : LinesInv lm s) (nrb : Nat) :
    LinesInv lm (pblkLineGetFirstData env lm s nrb).2 := by
  have spec := lineGet_spec env inv
  unfold pblkLineGetFirstData
  split
  · next s1 taken =>
    rw [taken] at spec
    exact spec.inv
  · next line s1 taken =>
    rw [taken] at spec
    have opened1 : (s1.lines line).state = .opened := (spec.taken rfl).2
    -- the stream's first line, tagged with the stream
    extract_lets t1 u1
    have invT1 : LinesInv lm t1 := spec.inv.touch (fun _ => rfl) (fun _ ok => ok)
    have invU1 : LinesInv lm u1 := invT1.congr rfl rfl rfl
    have openedU1 : (u1.lines line).state = .opened := by simp [u1, t1, opened1]
    -- the next line, which does not take the first one
    split
    next next s2 taken2 =>
    have spec2 := lineGet_spec env invU1
    rw [taken2] at spec2
    have opened2 : (s2.lines line).state = .opened := by
      rw [spec2.keeps invU1 (by simp [openedU1])]
      exact openedU1
    extract_lets t2
    have invT2 : LinesInv lm t2 ∧ (t2.lines line).state = .opened := by
      cases next with
      | none => exact ⟨spec2.inv.congr rfl rfl rfl, opened2⟩
      | some n =>
        have tagged : LinesInv lm (s2.modifyLine n fun l => { l with seqNr := s2.dSeqNr }) :=
          spec2.inv.touch (fun _ => rfl) (fun _ ok => ok)
        exact ⟨tagged.congr rfl rfl rfl, by simp [t2, modifyLine_state, opened2]⟩
    -- the first line is erased, or replaced by `pblk_line_retry`
    split
    next erased s3 erase =>
    have erased3 : (pblkLineErase env t2 line).2 = s3 := by rw [erase]
    have invS3 : LinesInv lm s3 := erased3 ▸ invT2.1.erase line
    have opened3 : (s3.lines line).state = .opened := by
      rw [← erased3, lineErase_state]
      exact invT2.2
    have handed : Handed lm (if erased = true then (some line, s3) else pblkLineRetry env lm line nrb s3) := by
      split
      · exact ⟨invS3, fun got => by cases got; exact opened3⟩
      · exact lineRetry_handed invS3 (.inl opened3)
    split
    · next s4 done =>
      rw [done] at handed
      exact handed.inv
    · next line' s4 done =>
      rw [done] at handed
      extract_lets t4 t5
      have invT5 : LinesInv lm t5 := by
        cases next <;> exact handed.inv.congr rfl rfl rfl
      have openedT5 : (t5.lines line').state = .opened := by
        cases next <;> exact handed.opened rfl
      exact (setupLoop_handed invT5 openedT5).inv

theorem LinesInv.replaceData (inv : LinesInv lm s) {nrb : Nat}
    (next : ∀ n, s.dataNext nrb = some n → (s.lines n).state = .opened) :
    LinesInv lm (pblkLineReplaceData env lm s nrb) := by
  unfold pblkLineReplaceData
  split
  · exact inv
  · next new prepared =>
    extract_lets u
    have invU : LinesInv lm u := inv.congr rfl rfl rfl
    have openedU : (u.lines new).state = .opened := next new prepared
    split
    · -- the instance is stopping: no line is touched
      exact invU.congr rfl rfl rfl
    · split
      next erased s1 erase =>
      have erased1 : (pblkLineErase env u new).2 = s1 := by rw [erase]
      have inv1 : LinesInv lm s1 := erased1 ▸ invU.erase new
      have opened1 : (s1.lines new).state = .opened := by
        rw [← erased1, lineErase_state]
        exact openedU
      split
      · exact inv1
      · have handed : Handed lm (setupLoop env lm nrb new s1) := setupLoop_handed inv1 opened1
        split
        · next s2 done =>
          rw [done] at handed
          exact handed.inv
        · next s2 done =>
          rw [done] at handed
          -- the next line to prepare
          have spec := lineGet_spec env handed.inv
          split
          · next s3 taken =>
            rw [taken] at spec
            exact spec.inv.congr rfl rfl rfl
          · next n s3 taken =>
            rw [taken] at spec
            have tagged : LinesInv lm (s3.modifyLine n fun l => { l with seqNr := s3.dSeqNr, pstream := nrb }) :=
              spec.inv.touch (fun _ => rfl) (fun _ ok => ok)
            exact tagged.congr rfl rfl rfl

end Setup

/-! ## Closing lines and GC -/

section Gc

variable {s s' : LineMgmt} {id : Nat} {l : LineList}

theorem LinesInv.close (inv : LinesInv lm s) (opened : (s.lines id).state = .opened)
    (closed : pblkLineClose lm s id = .ok s') : LinesInv lm s' := by
  have un := inv.unlisted_of_opened opened
  have held : 1 ≤ (s.lines id).ref := by simpa [LineOk, opened] using inv.ok id
  unfold pblkLineClose at closed
  split at closed
  · cases closed
  · next l line filed =>
    cases closed
    have gcClosed : ({ s.lines id with state := .closed } : Line).state = .closed := rfl
    have ok : LineOk lm (pblkLineGcList lm { s.lines id with state := .closed }).2 := gcList_ok gcClosed held
    have st : (pblkLineGcList lm { s.lines id with state := .closed }).2.state = listState l :=
      gcList_filed gcClosed (by rw [filed])
    rw [filed] at ok st
    refine (inv.modifyLine (.inr un) ok).addTail un (by simpa using st) ?_
    rintro rfl
    exact gcList_ne_free _ (by rw [filed])

theorem putLineBack_banded (inv : LinesInv lm s) (gc : (s.lines id).state = .gc) :
    pblkPutLineBack lm s id = s.modifyLine id fun l => { l with state := .closed } := by
  have ok : 1 ≤ (s.lines id).ref ∧ gcFiling lm (s.lines id).gcGroup (s.lines id).vsc (s.lines id).secInLine = none := by
    simpa [LineOk, gc] using inv.ok id
  have settled := ok.2
  unfold pblkPutLineBack
  split
  · next line filed =>
    have same : (pblkLineGcList lm { s.lines id with state := .closed }).2 = { s.lines id with state := .closed } :=
      gcList_none (by simpa using settled)
    rw [filed] at same
    simp only at same
    simp [modifyLine, same]
  · next l line filed =>
    have first := congrArg Prod.fst filed
    simp [settled] at first

theorem Unlisted.of_gc (inv : LinesInv lm s) (gc : (s.lines id).state = .gc) (read : id ∉ s.lists .gcRead) :
    Unlisted s id := by
  intro l mem
  have reader := listState_eq_gc ((inv.filed mem).symm.trans gc)
  exact read (reader ▸ mem)

theorem LinesInv.putLineBack (inv : LinesInv lm s) (gc : (s.lines id).state = .gc) (read : id ∉ s.lists .gcRead) :
    LinesInv lm (pblkPutLineBack lm s id) := by
  rw [putLineBack_banded inv gc]
  exact inv.modifyLine (.inr (Unlisted.of_gc inv gc read)) (by simpa [LineOk, gc] using inv.ok id)

theorem LinesInv.linePut (inv : LinesInv lm s) (un : Unlisted s id) (f : Line → Line) :
    LinesInv lm (pblkLinePut (s.modifyLine id f) id) := by
  have taken : LinesInv lm ((s.modifyLine id f).modifyLine id fun l => { l with state := .free, gcGroup := .none }) := by
    rw [modifyLine_modifyLine]
    exact inv.modifyLine (.inr un) (by simp [LineOk])
  have freed : LinesInv lm (((s.modifyLine id f).modifyLine id fun l => { l with state := .free, gcGroup := .none }).modifyLine
      id fun l => { l with vsc := emptyEntry }) :=
    taken.modifyLine (.inl rfl) (by simp [LineOk])
  exact freed.file un (show _ = listState .free by simp [listState]) rfl rfl
    (by simp [pblkLinePut, pblkLineFree, pblkRlFreeLinesInc, inv.count])

theorem LinesInv.refPut (inv : LinesInv lm s) (last : (s.lines id).ref ≤ 1 → Unlisted s id) :
    LinesInv lm (lineRefPut s id) := by
  unfold lineRefPut
  extract_lets t
  split
  · next dropped =>
    -- the last reference goes only from a line on no list
    simp only [t, modifyLine_lines_self] at dropped
    exact inv.linePut (last (by omega)) _
  · next held =>
    -- a reference is left, so the line keeps its state and stays fit for it
    refine inv.modifyLine (.inl rfl) ?_
    have ok := inv.ok id
    simp only [t, modifyLine_lines_self] at held
    unfold LineOk at ok ⊢
    split at ok <;> simp_all <;> omega

theorem LinesInv.refGet (inv : LinesInv lm s) : LinesInv lm (lineRefGet s id) := by
  refine inv.modifyLine (.inl rfl) ?_
  have ok := inv.ok id
  unfold LineOk at ok ⊢
  split at ok <;> simp_all

theorem LinesInv.toGc (inv : LinesInv lm s) (mem : id ∈ s.lists l) (closed : listState l = .closed) :
    LinesInv lm ((s.modifyLine id fun ln => { ln with state := .gc }).del l id) ∧
      Unlisted ((s.modifyLine id fun ln => { ln with state := .gc }).del l id) id := by
  have notFree : l ≠ .free := by
    rintro rfl
    simp [listState] at closed
  have wasClosed : (s.lines id).state = .closed := (inv.filed mem).trans closed
  have held : 1 ≤ (s.lines id).ref ∧ gcFiling lm (s.lines id).gcGroup (s.lines id).vsc (s.lines id).secInLine = none := by
    simpa [LineOk, wasClosed] using inv.ok id
  have unD := inv.del_unlisted mem
  -- the line leaves the list before its state changes
  rw [del_modifyLine]
  exact ⟨(inv.del notFree).modifyLine (.inr unD) (by simpa [LineOk] using held), unD⟩

theorem LinesInv.takeVictim (inv : LinesInv lm s) (victim : l ∈ gcLists) (mem : id ∈ s.lists l) :
    LinesInv lm (gcTakeVictim s l id) := by
  have closed : listState l = .closed := by
    simp only [gcLists, List.mem_cons, List.not_mem_nil, or_false] at victim
    rcases victim with rfl | rfl | rfl <;> rfl
  obtain ⟨taken, un⟩ := inv.toGc mem closed
  unfold gcTakeVictim
  exact taken.addTail un (by simp [listState]) (by decide)

theorem lineRefPut_lists (notFree : l ≠ .free) (s : LineMgmt) (id : Nat) :
    (lineRefPut s id).lists l = s.lists l := by
  unfold lineRefPut
  extract_lets t
  split
  · simp [t, pblkLinePut, pblkLineFree, pblkRlFreeLinesInc, notFree]
  · rfl

theorem LinesInv.gcFreeFull {ids : List Nat} (inv : LinesInv lm s) (start : s.lists .gcFull = ids) :
    LinesInv lm (gcFreeFullLoop ids s) := by
  induction ids generalizing s with
  | nil => exact inv
  | cons id rest ih =>
    have mem : id ∈ s.lists .gcFull := start ▸ List.mem_cons_self
    obtain ⟨taken, un⟩ := inv.toGc mem rfl
    simp only [gcFreeFullLoop]
    refine ih (taken.refPut fun _ => un) ?_
    rw [lineRefPut_lists (by decide)]
    simp [start]

theorem LinesInv.gcRead (inv : LinesInv lm s) : LinesInv lm (pblkGcRead s).2 := by
  unfold pblkGcRead
  split
  · exact inv
  · exact inv.del (by decide)

theorem LinesInv.mapInvalidate (inv : LinesInv lm s) (id : Nat) (invalid : Bool) :
    LinesInv lm (pblkMapInvalidate lm s id invalid) := by
  unfold pblkMapInvalidate
  extract_lets line line'
  split
  · exact inv
  next live =>
  -- GC and free lines are not counted down
  replace live : ¬((s.lines id).state = .gc ∨ (s.lines id).state = .free) := live
  split
  · exact inv
  have ok := inv.ok id
  split
  · next closed =>
    replace closed : (s.lines id).state = .closed := closed
    have held : 1 ≤ (s.lines id).ref := by
      simp only [LineOk, closed] at ok
      exact ok.1
    -- the valid count changed: the line is filed again for it
    split
    · next line'' same =>
      have kept : (pblkLineGcList lm line').2 = line' := gcList_none (by rw [same])
      have filing : (pblkLineGcList lm line').1 = none := by rw [same]
      rw [same] at kept
      simp only at kept
      subst kept
      refine inv.modifyLine (.inl rfl) ?_
      simp only [gcList_fst] at filing
      simpa [LineOk, line', line, closed, held] using filing
    · next l line'' filed =>
      have notFree : (s.lines id).state ≠ .free := by simp [closed]
      obtain ⟨unlinked, un⟩ := inv.unlink notFree
      have closed' : line'.state = .closed := closed
      have gcOk : LineOk lm (pblkLineGcList lm line').2 := gcList_ok closed' held
      have st : (pblkLineGcList lm line').2.state = listState l := gcList_filed closed' (by rw [filed])
      rw [filed] at gcOk st
      show LinesInv lm (((s.unlink id).modifyLine id fun _ => line'').addTail l id)
      refine (unlinked.modifyLine (.inr un) gcOk).addTail un (by simpa using st) ?_
      rintro rfl
      exact gcList_ne_free _ (by rw [filed])
  · next notClosed =>
    -- an open, bad or corrupt line only changes its count
    replace notClosed : (s.lines id).state ≠ .closed := notClosed
    refine inv.modifyLine (.inl rfl) ?_
    simp only [line', line]
    unfold LineOk at ok ⊢
    split at ok <;> simp_all

end Gc

/-! ## Building the lines -/

section Init

variable {s : LineMgmt}

theorem LinesInv.linesInitLoop {bad : Nat → Nat} {ids : List Nat} (inv : LinesInv lm s) (distinct : ids.Nodup)
    (fresh : ∀ i ∈ ids, Unlisted s i ∧ (s.lines i).state = .free) : LinesInv lm (linesInitLoop lm bad ids s) := by
  induction ids generalizing s with
  | nil => exact inv
  | cons i rest ih =>
    obtain ⟨un, free⟩ := fresh i List.mem_cons_self
    obtain ⟨out, distinct⟩ := List.nodup_cons.mp distinct
    have other : ∀ j ∈ rest, j ≠ i := fun j mem same => out (same ▸ mem)
    simp only [linesInitLoop]
    split
    · -- too few good blocks: the line is bad
      refine ih (inv.markBad un) distinct fun j mem => ⟨(fresh j (List.mem_cons_of_mem i mem)).1.addTail (other j mem) _, ?_⟩
      simpa [markBad, other j mem] using (fresh j (List.mem_cons_of_mem i mem)).2
    · have counted : LinesInv lm (s.modifyLine i fun l => { l with blkInLine := (lm.blkPerLine : Int) - bad i }) :=
        inv.touch (fun _ => rfl) (fun _ ok => ok)
      refine ih (counted.file un (show _ = listState .free by simpa [listState] using free) rfl rfl
        (by simp [inv.count])) distinct fun j mem => ⟨?_, ?_⟩
      · exact (fresh j (List.mem_cons_of_mem i mem)).1.addTail (other j mem) _
      · simpa [other j mem] using (fresh j (List.mem_cons_of_mem i mem)).2

theorem linesInit_inv (nrLines : Nat) (bad : Nat → Nat) : LinesInv lm (pblkLinesInit lm nrLines bad) := by
  unfold pblkLinesInit
  extract_lets fresh
  refine LinesInv.linesInitLoop ?_ List.nodup_range fun i _ => ⟨fun l => by simp, rfl⟩
  exact { nodup := fun _ => List.nodup_nil, apart := fun mem => by simp at mem,
          filed := fun mem => by simp at mem, count := rfl, ok := fun _ => trivial }

end Init

/-! ## Runs of the line manager -/

section Runs

/-- The operations of the line manager, each with what the device answers. -/
inductive LineOp where
  | getFirstData (env : Env) (nrb : Nat)
  | replaceData (env : Env) (nrb : Nat)
  | close (id : Nat)
  | invalidate (id : Nat) (invalid : Bool)
  | gcRunFull
  | takeVictim (l : LineList) (id : Nat)
  | gcRead
  | putLineBack (id : Nat)
  | refGet (id : Nat)
  | refPut (id : Nat)

/-- What the callers guarantee: a stream moves to a prepared line that is open,
`pblk_line_close` closes an open line (its `WARN_ON`), GC takes a victim from
the GC list it looks at, `pblk_put_line_back` gets a line under GC that the
reader has taken (its `WARN_ON`), a buffered sector is mapped onto an open
line, and the last reference is dropped only for a line on no list. -/
def LineOp.Allowed (s : LineMgmt) : LineOp → Prop
  | .replaceData _ nrb => ∀ n, s.dataNext nrb = some n → (s.lines n).state = .opened
  | .close id => (s.lines id).state = .opened
  | .takeVictim l id => l ∈ gcLists ∧ id ∈ s.lists l
  | .putLineBack id => (s.lines id).state = .gc ∧ id ∉ s.lists .gcRead
  | .refGet id => (s.lines id).state = .opened
  | .refPut id => (s.lines id).ref ≤ 1 → Unlisted s id
  | _ => True

/-- The line manager after an operation; `pblk_line_close` of a line whose
band is unchanged dereferences a `NULL` list head and has no successor. -/
def lineApply (lm : LineMeta) (s : LineMgmt) : LineOp → Except Fault LineMgmt
  | .getFirstData env nrb => pure (pblkLineGetFirstData env lm s nrb).2
  | .replaceData env nrb => pure (pblkLineReplaceData env lm s nrb)
  | .close id => pblkLineClose lm s id
  | .invalidate id invalid => pure (pblkMapInvalidate lm s id invalid)
  | .gcRunFull => pure (gcFreeFullLoop (s.lists .gcFull) s)
  | .takeVictim l id => pure (gcTakeVictim s l id)
  | .gcRead => pure (pblkGcRead s).2
  | .putLineBack id => pure (pblkPutLineBack lm s id)
  | .refGet id => pure (lineRefGet s id)
  | .refPut id => pure (lineRefPut s id)

def LineStep (lm : LineMeta) (s : LineMgmt) (op : LineOp) (s' : LineMgmt) : Prop :=
  op.Allowed s ∧ lineApply lm s op = .ok s'

def LinesInitial (lm : LineMeta) (s : LineMgmt) : Prop := ∃ nrLines bad, s = pblkLinesInit lm nrLines bad

theorem step_linesInv {s s' : LineMgmt} {op : LineOp} (inv : LinesInv lm s) (step : LineStep lm s op s') :
    LinesInv lm s' := by
  obtain ⟨allowed, applied⟩ := step
  cases op with
  | getFirstData env nrb =>
    cases applied
    exact inv.getFirstData nrb
  | replaceData env nrb =>
    cases applied
    exact inv.replaceData allowed
  | close id => exact inv.close allowed applied
  | invalidate id invalid =>
    cases applied
    exact inv.mapInvalidate id invalid
  | gcRunFull =>
    cases applied
    exact inv.gcFreeFull rfl
  | takeVictim l id =>
    cases applied
    exact inv.takeVictim allowed.1 allowed.2
  | gcRead =>
    cases applied
    exact inv.gcRead
  | putLineBack id =>
    cases applied
    exact inv.putLineBack allowed.1 allowed.2
  | refGet id =>
    cases applied
    exact inv.refGet
  | refPut id =>
    cases applied
    exact inv.refPut allowed

theorem LinesInv.of_reachable {s : LineMgmt} (reach : Reachable (LinesInitial lm) (LineStep lm) s) : LinesInv lm s :=
  reach.invariant (LinesInv lm) (fun _ ⟨nrLines, bad, start⟩ => start ▸ linesInit_inv nrLines bad)
    fun _ _ _ inv step => step_linesInv inv step

theorem lines_reachable_apart {s : LineMgmt} (reach : Reachable (LinesInitial lm) (LineStep lm) s) :
    (∀ l, (s.lists l).Nodup) ∧ (∀ l l' id, id ∈ s.lists l → id ∈ s.lists l' → l = l') ∧
      (∀ l id, id ∈ s.lists l → (s.lines id).state = listState l) ∧ s.nrFreeLines = (s.lists .free).length := by
  have inv := LinesInv.of_reachable reach
  exact ⟨inv.nodup, fun _ _ _ => inv.apart, fun _ _ => inv.filed, inv.count⟩

/-- `pblk_lines_init` over four lines of which line 2 has three bad blocks. -/
def threeGood : LineMgmt := pblkLinesInit fourLines 4 fun i => if i = 2 then 3 else 0

theorem lines_reachable_apart_at_start :
    Reachable (LinesInitial fourLines) (LineStep fourLines) threeGood ∧
      ((∀ l, (threeGood.lists l).Nodup) ∧ (∀ l l' id, id ∈ threeGood.lists l → id ∈ threeGood.lists l' → l = l') ∧
        (∀ l id, id ∈ threeGood.lists l → (threeGood.lines id).state = listState l) ∧
        threeGood.nrFreeLines = (threeGood.lists .free).length) :=
  have reach : Reachable (LinesInitial fourLines) (LineStep fourLines) threeGood := .init ⟨4, _, rfl⟩
  ⟨reach, lines_reachable_apart reach⟩

/-- In a reachable state `pblk_line_get` never takes its `-EAGAIN` path: it
leaves `corrupt_list` as it is, and the line it hands out was on the free list
and is now open and on no list. -/
theorem line_get_keeps_corrupt_list {s : LineMgmt} (reach : Reachable (LinesInitial lm) (LineStep lm) s) (env : Env) :
    (pblkLineGet env lm s).2.lists .corrupt = s.lists .corrupt ∧
      ∀ id, (pblkLineGet env lm s).1 = some id →
        id ∈ s.lists .free ∧ ((pblkLineGet env lm s).2.lines id).state = .opened ∧
          ∀ l, id ∉ (pblkLineGet env lm s).2.lists l := by
  have inv := LinesInv.of_reachable reach
  have spec := lineGet_spec env inv
  refine ⟨spec.corrupt, fun id got => ?_⟩
  obtain ⟨mem, opened⟩ := spec.taken got
  exact ⟨mem, opened, spec.inv.unlisted_of_opened opened⟩

theorem line_get_keeps_corrupt_list_at_start :
    Reachable (LinesInitial fourLines) (LineStep fourLines) threeGood ∧
      ((pblkLineGet everyEraseCompletes fourLines threeGood).2.lists .corrupt = threeGood.lists .corrupt ∧
        ∀ id, (pblkLineGet everyEraseCompletes fourLines threeGood).1 = some id →
          id ∈ threeGood.lists .free ∧ ((pblkLineGet everyEraseCompletes fourLines threeGood).2.lines id).state = .opened ∧
            ∀ l, id ∉ (pblkLineGet everyEraseCompletes fourLines threeGood).2.lists l) :=
  have reach : Reachable (LinesInitial fourLines) (LineStep fourLines) threeGood := .init ⟨4, _, rfl⟩
  ⟨reach, line_get_keeps_corrupt_list reach everyEraseCompletes⟩

end Runs

end MStream.Lines
