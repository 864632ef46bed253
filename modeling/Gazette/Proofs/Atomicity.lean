import Gazette.Proofs.Call
import Gazette.Proofs.Save

/-!
# Atomicity

A save or a deletion that fails leaves the store as it was. Saving a post takes several commands;
it is a transaction, which goes back to where it started if any of them fails. It is known for every
save when the rules of the store refuse it.
-/
namespace Gazette
namespace Store

/-- A command changes the store, or it is refused and changes nothing. -/
abbrev Command := Store → Except StoreError Store

/-- Carries out commands up to the first that fails. What was done before it stays. -/
def execute : List Command → Store → Option StoreError × Store
  | [], s => (none, s)
  | command :: rest, s =>
    match command s with
    | .ok s => execute rest s
    | .error e => (some e, s)

/-- Carries out commands, and takes everything back if one of them fails. -/
def transaction (commands : List Command) (s : Store) : Option StoreError × Store :=
  match execute commands s with
  | (none, t) => (none, t)
  | (some e, _) => (some e, s)

def writePost (post : Post) : Command := fun s => do
  let row := PostRow.ofPost post
  requireFree .postSlug PostRow.slug row s.posts
  requireRows (s.posts.has post.id || s.users.has post.authorId)
  requireRows (post.categoryId.all fun id => s.categories.has id)
  .ok { s with posts := s.posts.put PostRow.merge row }

def clearTags (postId : String) : Command := fun s =>
  .ok { s with links := s.links.filter (·.postId != postId) }

def addTag (postId tagId : String) : Command := fun s =>
  if s.links.contains ⟨postId, tagId⟩ then .ok s
  else do
    requireRows (s.posts.has postId && s.tags.has tagId)
    .ok { s with links := s.links ++ [⟨postId, tagId⟩] }

def postCommands (post : Post) : List Command :=
  writePost post :: clearTags post.id :: post.tagIds.map (addTag post.id)

variable {s t : Store} {postId tagId : String} {ids seen : List String} {kept : List TagLink}

/-- A tag that the post has is ignored, and any other is added last. -/
theorem addTag_ok (hpost : s.posts.has postId = true) (htag : s.tags.has tagId = true)
    (hlinks : s.links = kept ++ seen.map (TagLink.mk postId))
    (hkept : ∀ link ∈ kept, link.postId ≠ postId) :
    addTag postId tagId s = .ok (if tagId ∈ seen then s
      else { s with links := kept ++ (seen ++ [tagId]).map (TagLink.mk postId) }) := by
  have hcontains : s.links.contains ⟨postId, tagId⟩ = true ↔ tagId ∈ seen := by
    rw [List.contains_iff_mem, hlinks, List.mem_append, List.mem_map]
    constructor
    · rintro (hold | ⟨id, hid, hlink⟩)
      · exact absurd rfl (hkept _ hold)
      · exact (TagLink.mk.inj hlink).2 ▸ hid
    · exact fun hseen => .inr ⟨tagId, hseen, rfl⟩
  unfold addTag
  by_cases hseen : tagId ∈ seen
  · rw [if_pos (hcontains.2 hseen), if_pos hseen]
  · rw [if_neg (mt hcontains.1 hseen), if_neg hseen, hpost, htag, hlinks, List.map_append,
      ← List.append_assoc]
    rfl

/-- Tags that all exist are added in their order, each of them once. The induction is on the tags
that are left, for whatever tags the post has got before. -/
theorem execute_addTags_ok (hpost : s.posts.has postId = true)
    (htags : ∀ id ∈ ids, s.tags.has id = true)
    (hlinks : s.links = kept ++ seen.map (TagLink.mk postId))
    (hkept : ∀ link ∈ kept, link.postId ≠ postId) :
    execute (ids.map (addTag postId)) s =
      (none, { s with
        links := kept ++ (seen ++ (ids.filter fun id => !seen.contains id).eraseDups).map
          (TagLink.mk postId) }) := by
  induction ids generalizing s seen with
  | nil => simp [execute, ← hlinks]
  | cons id rest ih =>
      rw [List.map_cons, execute,
        addTag_ok hpost (htags id List.mem_cons_self) hlinks hkept]
      have hrest : ∀ id ∈ rest, s.tags.has id = true := fun id hid =>
        htags id (List.mem_cons_of_mem _ hid)
      by_cases hseen : id ∈ seen
      · simp only [hseen, if_true]
        rw [ih hpost hrest hlinks, List.filter_cons_of_neg (by simp [hseen])]
      · simp only [hseen, if_false]
        let next := { s with links := kept ++ (seen ++ [id]).map (TagLink.mk postId) }
        refine (ih (s := next) hpost hrest rfl).trans ?_
        have hleft : (rest.filter fun other => !(seen ++ [id]).contains other) =
            (rest.filter fun other => !seen.contains other).filter fun other => !other == id := by
          rw [List.filter_filter]
          refine List.filter_congr fun other _ => ?_
          rw [Bool.eq_iff_iff]
          simp [and_comm]
        rw [hleft, List.filter_cons_of_pos (by simp [hseen]), List.eraseDups_cons,
          List.append_assoc]
        rfl

theorem execute_addTags_error (hlinks : ∀ id, ⟨postId, id⟩ ∈ s.links → s.tags.has id = true)
    (hmissing : ∃ id ∈ ids, s.tags.has id = false) (hpost : s.posts.has postId = true) :
    (execute (ids.map (addTag postId)) s).1 = some .dangling := by
  induction ids generalizing s with
  | nil => simp at hmissing
  | cons id rest ih =>
      rw [List.map_cons, execute, addTag]
      by_cases hlink : s.links.contains ⟨postId, id⟩ = true
      · have htag := hlinks id (List.contains_iff_mem.1 hlink)
        rw [if_pos hlink]
        refine ih hlinks ?_ hpost
        simpa [htag] using hmissing
      · rw [if_neg hlink]
        cases htag : s.tags.has id with
        | false => simp [hpost, requireRows, bind, Except.bind]
        | true =>
            rw [hpost]
            refine ih (fun other hother => ?_) (by simpa [htag] using hmissing) hpost
            rcases List.mem_append.1 hother with hold | hnew
            · exact hlinks other hold
            · rw [List.mem_singleton] at hnew
              exact (TagLink.mk.inj hnew).2 ▸ htag

theorem writePost_ok {post : Post} (h : writePost post s = .ok t) :
    t = { s with posts := s.posts.put PostRow.merge (PostRow.ofPost post) } := by
  simp only [writePost, requireFree_then_ok, requireRows_then_ok] at h
  exact (Except.ok.inj h.2.2.2).symm

/-- A save writes the row, asks for all tags and then replaces the links. -/
theorem savePost_eq (post : Post) (s : Store) :
    s.savePost post = (do
      let written ← writePost post s
      requireRows (post.tagIds.all fun id => s.tags.has id)
      .ok { written with
        links := s.links.filter (·.postId != post.id) ++
          post.tagIds.eraseDups.map (⟨post.id, ·⟩) }) := by
  unfold savePost writePost
  dsimp only
  cases requireFree .postSlug PostRow.slug (PostRow.ofPost post) s.posts with
  | error e => rfl
  | ok _ =>
      cases requireRows (s.posts.has post.id || s.users.has post.authorId) with
      | error e => rfl
      | ok _ => cases requireRows (post.categoryId.all fun id => s.categories.has id) <;> rfl

theorem transaction_postCommands (post : Post) (s : Store) :
    transaction (postCommands post) s =
      match s.savePost post with
      | .ok t => (none, t)
      | .error e => (some e, s) := by
  rw [savePost_eq, transaction, postCommands, execute]
  cases hwrite : writePost post s with
  | error e => rfl
  | ok written =>
      obtain rfl := writePost_ok hwrite
      let cleared : Store :=
        { s with
          posts := s.posts.put PostRow.merge (PostRow.ofPost post)
          links := s.links.filter (·.postId != post.id) }
      have hpost : cleared.posts.has post.id = true :=
        (Table.has_put mergePost_keepsKey).2 (.inr rfl)
      have hother : ∀ link ∈ cleared.links, link.postId ≠ post.id := fun link hlink =>
        bne_iff_ne.1 (List.mem_filter.1 hlink).2
      show (match execute (post.tagIds.map (addTag post.id)) cleared with
        | (none, t) => (none, t)
        | (some e, _) => (some e, s)) = _
      -- If a tag is missing, the transaction is rolled back to where it began.
      by_cases htags : ∀ id ∈ post.tagIds, s.tags.has id = true
      · have hall : (post.tagIds.all fun id => s.tags.has id) = true := List.all_eq_true.2 htags
        have hlinks : cleared.links =
            cleared.links ++ ([] : List String).map (TagLink.mk post.id) := by simp
        rw [execute_addTags_ok hpost htags hlinks hother, hall]
        simp [requireRows, bind, Except.bind, cleared]
      · have hall : (post.tagIds.all fun id => s.tags.has id) = false := by simpa using htags
        have hmissing : ∃ id ∈ post.tagIds, s.tags.has id = false := by simpa using htags
        have herror := execute_addTags_error (s := cleared)
          (fun id hid => absurd rfl (hother _ hid)) hmissing hpost
        rw [hall]
        split
        · rename_i hnone
          rw [hnone] at herror
          cases herror
        · rename_i e t hsome
          rw [hsome] at herror
          cases herror
          rfl

end Store

namespace Change
variable {s : Store} {change : Change}

def IsSave : Change → Prop
  | saveUser _ | saveCategory _ | saveTag _ | savePost _ | saveComment _ | saveMessage _
  | saveSettings _ => True
  | _ => False

/-- Whether a save would break a rule of the store: another row holds what has to be unique, or
something that is referred to is missing. What an update leaves alone is not looked at. -/
def Breaks (change : Change) (s : Store) : Prop :=
  match change with
  | saveUser user => ∃ other ∈ s.users, other.id ≠ user.id ∧
      (other.username = user.username ∨ other.email = user.email)
  | saveCategory category => ∃ other ∈ s.categories, other.id ≠ category.id ∧
      other.slug = category.slug
  | saveTag tag => ∃ other ∈ s.tags, other.id ≠ tag.id ∧ other.slug = tag.slug
  | savePost post =>
      (∃ other ∈ s.posts, other.id ≠ post.id ∧ other.slug = post.slug) ∨
        (s.posts.has post.id = false ∧ s.users.has post.authorId = false) ∨
        (∃ id ∈ post.categoryId, s.categories.has id = false) ∨
        ∃ id ∈ post.tagIds, s.tags.has id = false
  | saveComment comment => s.comments.has comment.id = false ∧
      (s.posts.has comment.postId = false ∨ s.users.has comment.authorId = false ∨
        ∃ id ∈ comment.parentId, id ≠ comment.id ∧ s.comments.has id = false)
  | _ => False

theorem isTaken_iff {α β : Type} [Keyed α] [BEq β] [LawfulBEq β] {column : α → β} {row : α}
    {table : Table α} :
    table.isTaken column row = true ↔
      ∃ other ∈ table, Keyed.key other ≠ Keyed.key row ∧ column other = column row := by
  simp [Table.isTaken]

theorem exists_ok_iff (h : change.IsSave) :
    (∃ t, change.apply s = .ok t) ↔ ¬ change.Breaks s := by
  cases change with
  | saveUser user =>
      simp only [apply, Store.saveUser_ok, exists_and_left, exists_eq, and_true, Breaks,
        and_or_left, exists_or, ← key_user, ← isTaken_iff, not_or, Bool.not_eq_true]
      exact and_comm
  | saveCategory category =>
      simp only [apply, Store.saveCategory_ok, exists_and_left, exists_eq, and_true, Breaks,
        ← key_category, ← isTaken_iff, Bool.not_eq_true]
  | saveTag tag =>
      simp only [apply, Store.saveTag_ok, exists_and_left, exists_eq, and_true, Breaks,
        ← key_tag, ← isTaken_iff, Bool.not_eq_true]
  | savePost post =>
      have hslug : (∃ other ∈ s.posts, other.id ≠ post.id ∧ other.slug = post.slug) ↔
          s.posts.isTaken PostRow.slug (Store.PostRow.ofPost post) = true := by
        rw [isTaken_iff]
        rfl
      simp only [apply, Store.savePost_ok, exists_and_left, exists_eq, and_true, Breaks, hslug,
        not_or, not_and_or, not_exists, Bool.not_eq_true, Bool.not_eq_false, ← imp_iff_not_or]
  | saveComment comment =>
      simp only [apply, Store.saveComment_ok, exists_and_left, exists_eq, and_true, Breaks,
        not_or, not_and_or, not_exists, Bool.not_eq_false, ne_eq, not_not, ← imp_iff_not_or]
  | saveMessage message => exact ⟨fun _ => id, fun _ => ⟨_, rfl⟩⟩
  | saveSettings settings => exact ⟨fun _ => id, fun _ => ⟨_, rfl⟩⟩
  | _ => exact h.elim

theorem requireFree_then_constraint {α β γ : Type} [Keyed α] [BEq β] {unique : UniqueColumn}
    {column : α → β} {row : α} {table : Table α} {rest : Except StoreError γ} {e : StoreError}
    (h : (Store.requireFree unique column row table >>= fun _ => rest) = .error e)
    (hrest : rest = .error e → e.isConstraint = true) : e.isConstraint = true := by
  cases htaken : table.isTaken column row with
  | false =>
      rw [Store.requireFree, htaken] at h
      exact hrest h
  | true =>
      rw [Store.requireFree, htaken] at h
      cases h
      rfl

theorem requireRows_then_constraint {γ : Type} {allExist : Bool} {rest : Except StoreError γ}
    {e : StoreError} (h : (Store.requireRows allExist >>= fun _ => rest) = .error e)
    (hrest : rest = .error e → e.isConstraint = true) : e.isConstraint = true := by
  cases allExist with
  | false =>
      cases h
      rfl
  | true => exact hrest h

/-- A save is refused for a rule of the store, and for nothing else. -/
theorem isConstraint_of_save (h : change.IsSave) {e : StoreError}
    (herror : change.apply s = .error e) : e.isConstraint = true := by
  cases change with
  | saveUser user =>
      exact requireFree_then_constraint herror fun h => requireFree_then_constraint h nofun
  | saveCategory category => exact requireFree_then_constraint herror nofun
  | saveTag tag => exact requireFree_then_constraint herror nofun
  | savePost post =>
      exact requireFree_then_constraint herror fun h => requireRows_then_constraint h fun h =>
        requireRows_then_constraint h fun h => requireRows_then_constraint h nofun
  | saveComment comment => exact requireRows_then_constraint herror nofun
  | saveMessage message => cases herror
  | saveSettings settings => cases herror
  | _ => exact h.elim

/-- A save fails for a rule of the store exactly if it would break one. -/
theorem fails_iff (h : change.IsSave) :
    (∃ e, change.apply s = .error e ∧ e.isConstraint = true) ↔ change.Breaks s := by
  rw [← not_iff_not, ← exists_ok_iff h]
  constructor
  · intro hnone
    cases happly : change.apply s with
    | ok t => exact ⟨t, rfl⟩
    | error e => exact absurd ⟨e, happly, isConstraint_of_save h happly⟩ hnone
  · rintro ⟨t, hok⟩ ⟨e, herror, -⟩
    cases hok.symm.trans herror

theorem succeeds_or_keeps (change : Change) (s : Store) :
    (∃ t, change.apply s = .ok t ∧ change.after s = t) ∨
      ∃ e, change.apply s = .error e ∧ change.after s = s := by
  unfold after
  cases change.apply s with
  | ok t => exact .inl ⟨t, rfl, rfl⟩
  | error e => exact .inr ⟨e, rfl, rfl⟩

end Change

/-- What the editor does not take in leaves the store as it was, whatever the reason. -/
theorem Submission.eq_of_error [Libraries] {submission : Submission} {s t : Store} {e : EditorError}
    (h : submission.outcome s = (.error e, t)) : t = s := by
  have hunnamed : ∀ {α : Type} {p : Editor.Edit α}, p.Atomic →
      outcome.unnamed (p.outcome s) = (.error e, t) → t = s := by
    intro α p hp h
    cases hrun : p.outcome s with
    | mk result u =>
        rw [hrun] at h
        cases result with
        | ok a => cases h
        | error c =>
            obtain rfl : u = t := (Prod.mk.inj h).2
            exact hp s c u hrun
  cases submission with
  | user u now => exact hunnamed (Editor.saveUser_atomic u now) h
  | category c => exact hunnamed (Editor.saveCategory_atomic c) h
  | tag g => exact hunnamed (Editor.saveTag_atomic g) h
  | post p now => exact hunnamed (Editor.savePost_atomic p now) h
  | comment c now => exact hunnamed (Editor.saveComment_atomic c now) h
  | message m => exact hunnamed (Editor.saveMessage_atomic m) h
  | settings x now => exact hunnamed (Editor.saveSettings_atomic x now) h

/-- Failures are exact and leave no trace. Whatever a store holds, a change succeeds or leaves it as
it was, and so does the transaction that saves a post command by command. A save fails for a rule of
the store exactly if it would break one. The editor leaves a store as it was whenever it does not
take something in. -/
theorem Store.failures_leave_no_trace [Libraries] (s : Store) :
    (∀ change : Change, (∃ t, change.apply s = .ok t ∧ change.after s = t) ∨
      ∃ e, change.apply s = .error e ∧ change.after s = s) ∧
    (∀ post : Post, transaction (postCommands post) s =
      match s.savePost post with
      | .ok t => (none, t)
      | .error e => (some e, s)) ∧
    (∀ change : Change, change.IsSave →
      ((∃ e, change.apply s = .error e ∧ e.isConstraint = true) ↔ change.Breaks s)) ∧
    ∀ (submission : Submission) (e : EditorError) (t : Store),
      submission.outcome s = (.error e, t) → t = s :=
  ⟨fun change => change.succeeds_or_keeps s, fun post => transaction_postCommands post s,
    fun _ => Change.fails_iff, fun _ _ _ => Submission.eq_of_error⟩

attribute [local instance] Libraries.bare

namespace Sample

def drafted : Store :=
  Call.run (start ++ [.direct (.savePost post)]) {}

def mistagged : Post :=
  { post with title := "A longer read", tagIds := ["t1"] }

end Sample

/-- A save with an unknown tag breaks a rule, and its transaction takes the new title back. The
editor refuses the same post before it asks the store. -/
theorem Store.failures_leave_no_trace_of_mistagged :
    (∃ e, (Change.savePost Sample.mistagged).apply Sample.drafted = .error e ∧
      e.isConstraint = true) ∧
    (transaction (postCommands Sample.mistagged) Sample.drafted).2 = Sample.drafted ∧
    ((Submission.post Sample.mistagged (.ofSeconds 1)).outcome Sample.drafted).2 =
      Sample.drafted := by
  obtain ⟨-, htransaction, hexact, heditor⟩ := failures_leave_no_trace Sample.drafted
  refine ⟨(hexact (.savePost Sample.mistagged) trivial).2 ?_, ?_, ?_⟩
  · exact .inr (.inr (.inr ⟨"t1", by decide, by decide +kernel⟩))
  · rw [htransaction]
    have herror : Sample.drafted.savePost Sample.mistagged = .error .dangling := by decide +kernel
    rw [herror]
  · exact heditor (.post Sample.mistagged (.ofSeconds 1)) (.content (.unknownTag "t1")) _
      (by decide +kernel)

end Gazette
