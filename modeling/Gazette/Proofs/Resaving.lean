import Gazette.Proofs.Atomicity
import Gazette.Proofs.Discussion
import Gazette.Proofs.Join
import Gazette.Proofs.Rules

/-!
# Saving again

The editor applies the rules of content to what is submitted, but what is stored is a merge of that
with what was there before. The rules hold of the merge as well. So whatever is stored through the
editor can be loaded and saved again as it is, at any time: the save is taken in, and nothing but
the date of the last change is another one after it.
-/
namespace Gazette
open Text

/-- What is known by a name has one that is not blank, and a slug that is well-formed. -/
structure IsNamed (name slug : String) : Prop where
  name : isBlankText name = false
  slug : Slug.isWellFormed slug = true

structure User.Obeys (user : User) : Prop where
  username_trimmed : trim user.username = user.username
  username : isBlankText user.username = false
  email_trimmed : trim user.email = user.email
  email : isBlankText user.email = false
  at_sign : '@' ∈ user.email.toList

/-- A published post has its date. -/
structure PostRow.Obeys (row : PostRow) : Prop extends IsNamed row.title row.slug where
  dated : row.status = .published → row.publishedDate ≠ none

structure ContactMessage.Obeys (message : ContactMessage) : Prop where
  name : isBlankText message.name = false
  email : isBlankText message.email = false
  subject : isBlankText message.subject = false
  message : isBlankText message.message = false

structure SiteSettings.Obeys (settings : SiteSettings) : Prop where
  site_name : isBlankText settings.siteName = false
  posts_per_page : 1 ≤ settings.postsPerPage

/-- Everything that is stored obeys the rules of content, and so do the settings, stored or not. -/
structure Store.Obeys (s : Store) : Prop where
  users : ∀ user ∈ s.users, user.Obeys
  categories : ∀ category ∈ s.categories, IsNamed category.name category.slug
  tags : ∀ tag ∈ s.tags, IsNamed tag.name tag.slug
  posts : ∀ row ∈ s.posts, row.Obeys
  comments : ∀ comment ∈ s.comments, isBlankText comment.content = false
  messages : ∀ message ∈ s.messages, message.Obeys
  settings : s.loadSettings.Obeys

def Change.Obeys : Change → Prop
  | saveUser user => user.Obeys
  | saveCategory category => IsNamed category.name category.slug
  | saveTag tag => IsNamed tag.name tag.slug
  | savePost post => (Store.PostRow.ofPost post).Obeys
  | saveComment comment => isBlankText comment.content = false
  | saveMessage message => message.Obeys
  | saveSettings settings => settings.Obeys
  | _ => True

theorem User.obeys_iff {user : User} :
    user.Obeys ↔ user.trimmed = user ∧ user.validate = .ok () := by
  have htrimmed : user.trimmed = user ↔
      trim user.username = user.username ∧ trim user.email = user.email := by
    cases user
    simp [trimmed]
  rw [htrimmed, validate_ok]
  constructor
  · intro ⟨hname, hnamed, hemail, haddressed, hsign⟩
    exact ⟨⟨hname, hemail⟩, hnamed, haddressed, hsign⟩
  · intro ⟨⟨hname, hemail⟩, hnamed, haddressed, hsign⟩
    exact ⟨hname, hnamed, hemail, haddressed, hsign⟩

theorem User.obeys_trimmed {user : User} (h : user.trimmed.validate = .ok ()) :
    user.trimmed.Obeys := by
  refine obeys_iff.2 ⟨?_, h⟩
  simp only [trimmed, trim_trim]

theorem ContactMessage.obeys_iff {message : ContactMessage} :
    message.Obeys ↔ message.validate = .ok () := by
  rw [validate_ok]
  exact ⟨fun ⟨a, b, c, d⟩ => ⟨a, b, c, d⟩, fun ⟨a, b, c, d⟩ => ⟨a, b, c, d⟩⟩

theorem SiteSettings.obeys_iff {settings : SiteSettings} :
    settings.Obeys ↔ settings.validate = .ok () := by
  rw [validate_ok]
  exact ⟨fun ⟨a, b⟩ => ⟨a, b⟩, fun ⟨a, b⟩ => ⟨a, b⟩⟩

/-- Who submits something to the editor need not know the rules: what the editor asks for obeys
them. -/
theorem Submission.obeys_of_change? [Libraries] {submission : Submission} {change : Change}
    (h : submission.change? = .ok change) : change.Obeys := by
  unfold change? at h
  cases submission with
  | user u now =>
      obtain ⟨_, hrules, rfl⟩ := Change.of_map_ok h
      exact { User.obeys_trimmed hrules with }
  | category c =>
      obtain ⟨saved, hprepare, rfl⟩ := Change.of_map_ok h
      obtain ⟨hname, hslug, hsaved⟩ := Category.prepare_ok.1 hprepare
      have hkept : saved.name = c.name := by rw [hsaved]
      exact ⟨hkept ▸ hname, isWellFormed_of_settleSlug hslug⟩
  | tag g =>
      obtain ⟨saved, hprepare, rfl⟩ := Change.of_map_ok h
      obtain ⟨hname, hslug, hsaved⟩ := Tag.prepare_ok.1 hprepare
      have hkept : saved.name = g.name := by rw [hsaved]
      exact ⟨hkept ▸ hname, isWellFormed_of_settleSlug hslug⟩
  | post p now =>
      obtain ⟨saved, hprepare, rfl⟩ := Change.of_map_ok h
      obtain ⟨htitle, hslug, hsaved⟩ := Post.prepare_ok.1 hprepare
      have hkept : saved.title = p.title := by rw [hsaved]
      have htitled : isBlankText saved.title = false := hkept ▸ htitle
      have hdated : saved.status = .published → saved.publishedDate ≠ none := by
        rw [hsaved]
        intro (hpublished : p.status = .published)
        cases p.publishedDate <;> simp [hpublished]
      exact ⟨⟨htitled, isWellFormed_of_settleSlug hslug⟩, hdated⟩
  | comment c now =>
      obtain ⟨_, hrules, rfl⟩ := Change.of_map_ok h
      exact require_ok.1 hrules
  | message m =>
      obtain ⟨_, hrules, rfl⟩ := Change.of_map_ok h
      exact ContactMessage.obeys_iff.2 hrules
  | settings x now =>
      obtain ⟨_, hrules, rfl⟩ := Change.of_map_ok h
      exact { SiteSettings.obeys_iff.2 hrules with }

/-- A post that was published once keeps its date, so that the merge is dated as well. -/
theorem PostRow.Obeys.merge {new : PostRow} (h : new.Obeys) (old : PostRow) :
    (Store.PostRow.merge old new).Obeys where
  name := h.name
  slug := h.slug
  dated hpublished := by
    have hdate := h.dated hpublished
    show old.publishedDate.or new.publishedDate ≠ none
    cases old.publishedDate <;> simp [hdate]

theorem PostRow.Obeys.of_sameText {old new : PostRow} (h : old.Obeys) (hsame : old.SameText new) :
    new.Obeys := by
  rw [hsame]
  exact ⟨⟨h.name, h.slug⟩, h.dated⟩

namespace Change
variable {s t : Store} {change : Change}

theorem keeps_obeys (h : change.apply s = .ok t) (hs : s.Sound) (hchange : change.Obeys)
    (hrules : s.Obeys) : t.Obeys := by
  have hkeeps := apply_keeps h hs
  -- Table by table: what is new in it is what the change saves, everything else was there before.
  constructor
  · rcases hkeeps.users with ⟨user, rfl⟩ | ⟨p, hp⟩
    · obtain ⟨-, -, rfl⟩ := Store.saveUser_ok.1 h
      exact Table.forall_put hrules.users hchange fun _ _ => { hchange with }
    · rw [hp]
      exact fun user huser => hrules.users user (List.mem_filter.1 huser).1
  · rcases hkeeps.categories with ⟨category, rfl⟩ | ⟨p, hp⟩
    · obtain ⟨-, rfl⟩ := Store.saveCategory_ok.1 h
      exact Table.forall_put hrules.categories hchange fun _ _ => hchange
    · rw [hp]
      exact fun category hcategory => hrules.categories category (List.mem_filter.1 hcategory).1
  · rcases hkeeps.tags with ⟨tag, rfl⟩ | ⟨p, hp⟩
    · obtain ⟨-, rfl⟩ := Store.saveTag_ok.1 h
      exact Table.forall_put hrules.tags hchange fun _ _ => hchange
    · rw [hp]
      exact fun tag htag => hrules.tags tag (List.mem_filter.1 htag).1
  · rcases hkeeps.posts with ⟨post, rfl⟩ | ⟨p, hp⟩ | ⟨f, hf, hmap⟩
    · obtain ⟨-, -, -, -, rfl⟩ := Store.savePost_ok.1 h
      exact Table.forall_put hrules.posts hchange fun old _ => PostRow.Obeys.merge hchange old
    · rw [hp]
      exact fun row hrow => hrules.posts row (List.mem_filter.1 hrow).1
    · rw [hmap]
      intro row hrow
      obtain ⟨old, hold, rfl⟩ := List.mem_map.1 hrow
      exact (hrules.posts old hold).of_sameText (hf old)
  · rcases hkeeps.comments with ⟨comment, rfl⟩ | heq | ⟨selected, hunreached⟩
    · obtain ⟨-, rfl⟩ := Store.saveComment_ok.1 h
      exact Table.forall_put hrules.comments hchange fun _ _ => hchange
    · rw [heq]
      exact hrules.comments
    · rw [hunreached]
      exact fun comment hcomment => hrules.comments comment (Store.mem_unreached.1 hcomment).1
  · rcases hkeeps.messages with ⟨message, rfl⟩ | ⟨p, hp⟩
    · cases h
      exact Table.forall_put hrules.messages hchange fun _ hold => { hold with }
    · rw [hp]
      exact fun message hmessage => hrules.messages message (List.mem_filter.1 hmessage).1
  · rcases hkeeps.settings with ⟨settings, rfl⟩ | heq
    · cases h
      rw [Store.loadSettings_saveSettings]
      exact hchange
    · rw [Store.loadSettings, heq]
      exact hrules.settings

theorem obeys_of_not_isSave (h : ¬ change.IsSave) : change.Obeys := by
  cases change <;> first | trivial | exact absurd trivial h

end Change

namespace Store
variable {s : Store} {now : Timestamp}

/-- Whatever is stored can be loaded and saved again as it is, and so can the settings. That is
seen in the date of the last change, if there is one, and nowhere else. The tags of a post may be
linked in another order, of which nothing is ever shown. -/
structure SavesBack [Libraries] (s : Store) (now : Timestamp) : Prop where
  user : ∀ user ∈ s.users, s.users.row? user.id = some user ∧
    (Editor.saveUser user now).outcome s = (.ok { user with updatedAt := now },
      { s with users := s.users.update user.id fun row => { row with updatedAt := now } })
  category : ∀ category ∈ s.categories, s.categories.row? category.id = some category ∧
    (Editor.saveCategory category).outcome s = (.ok category, s)
  tag : ∀ tag ∈ s.tags, s.tags.row? tag.id = some tag ∧
    (Editor.saveTag tag).outcome s = (.ok tag, s)
  post : ∀ row ∈ s.posts, ∃ post links, s.findPost? row.id = .ok (some post) ∧
    links.Perm s.links ∧
    (Editor.savePost post now).outcome s = (.ok { post with updatedAt := now },
      { s with
        posts := s.posts.update row.id fun row => { row with updatedAt := now }
        links := links })
  comment : ∀ comment ∈ s.comments, s.comments.row? comment.id = some comment ∧
    (Editor.saveComment comment now).outcome s = (.ok { comment with updatedAt := now },
      { s with comments := s.comments.update comment.id fun row => { row with updatedAt := now } })
  message : ∀ message ∈ s.messages, s.messages.row? message.id = some message ∧
    (Editor.saveMessage message).outcome s = (.ok message, s)
  settings : (Editor.saveSettings s.loadSettings now).outcome s =
    (.ok { s.loadSettings with updatedAt := some now },
      { s with settings := [{ s.loadSettings with updatedAt := some now }] })

theorem saveUser_again (hs : s.Sound) {user : User} (huser : user ∈ s.users) (h : user.Obeys) :
    (Editor.saveUser user now).outcome s = (.ok { user with updatedAt := now },
      { s with users := s.users.update user.id fun row => { row with updatedAt := now } }) := by
  obtain ⟨htrimmed, hvalid⟩ := User.obeys_iff.1 h
  have hput : s.users.put mergeUser { user with updatedAt := now } =
      s.users.update user.id fun row => { row with updatedAt := now } := by
    refine Table.put_of_mem hs.user_ids huser ?_ ?_ <;> rfl
  rw [Editor.saveUser_ok, htrimmed, saveUser_ok, hput]
  exact ⟨hvalid, ⟨Table.isTaken_of_mem hs.user_emails huser rfl rfl,
    Table.isTaken_of_mem hs.usernames huser rfl rfl, rfl⟩, rfl⟩

theorem saveCategory_again [Libraries] (hs : s.Sound) {category : Category}
    (hstored : category ∈ s.categories) (h : IsNamed category.name category.slug) :
    (Editor.saveCategory category).outcome s = (.ok category, s) := by
  have hput : s.categories.put mergeCategory category = s.categories :=
    Table.put_self hs.category_ids hstored rfl
  rw [Editor.saveCategory_ok, Category.prepare_ok, saveCategory_ok, hput]
  exact ⟨⟨h.name, settleSlug_self h.slug, rfl⟩,
    Table.isTaken_of_mem hs.category_slugs hstored rfl rfl, rfl⟩

theorem saveTag_again [Libraries] (hs : s.Sound) {tag : Tag} (hstored : tag ∈ s.tags)
    (h : IsNamed tag.name tag.slug) : (Editor.saveTag tag).outcome s = (.ok tag, s) := by
  have hput : s.tags.put mergeTag tag = s.tags := Table.put_self hs.tag_ids hstored rfl
  rw [Editor.saveTag_ok, Tag.prepare_ok, saveTag_ok, hput]
  exact ⟨⟨h.name, settleSlug_self h.slug, rfl⟩,
    Table.isTaken_of_mem hs.tag_slugs hstored rfl rfl, rfl⟩

theorem mem_tagsOf (hs : s.Sound) {postId tagId : String} :
    tagId ∈ (s.tagsOf postId).map (·.id) ↔ (⟨postId, tagId⟩ : TagLink) ∈ s.links := by
  unfold tagsOf
  rw [List.mem_map]
  simp only [List.mem_mergeSort, List.mem_filter, List.contains_iff_mem]
  constructor
  · intro ⟨tag, ⟨_, hlink⟩, hid⟩
    exact hid ▸ hlink
  · intro hlink
    obtain ⟨tag, htag, hid⟩ := Table.has_iff.1 (hs.link_tag _ hlink)
    exact ⟨tag, ⟨htag, (show tag.id = tagId from hid) ▸ hlink⟩, hid⟩

/-- A post that is linked to its tags anew is linked to the same ones. -/
theorem relinked (hs : s.Sound) (postId : String) :
    (s.links.filter (·.postId != postId) ++
      ((s.tagsOf postId).map (·.id)).eraseDups.map (TagLink.mk postId)).Perm s.links := by
  refine (List.perm_ext_iff_of_nodup (nodup_links hs.link_once _ _) hs.link_once).2 fun link => ?_
  rw [List.mem_append, List.mem_filter, List.mem_map]
  simp only [List.mem_eraseDups, mem_tagsOf hs, bne_iff_ne]
  constructor
  · rintro (⟨hlink, -⟩ | ⟨tagId, hlink, rfl⟩)
    · exact hlink
    · exact hlink
  · intro hlink
    by_cases hpost : link.postId = postId
    · exact .inr ⟨link.tagId, hpost ▸ hlink, hpost ▸ rfl⟩
    · exact .inl ⟨hlink, hpost⟩

theorem savePost_again [Libraries] (hs : s.Sound) {row : PostRow} (hrow : row ∈ s.posts)
    (h : row.Obeys) (hread : Readable row) :
    ∃ post links, s.findPost? row.id = .ok (some post) ∧ links.Perm s.links ∧
      (Editor.savePost post now).outcome s = (.ok { post with updatedAt := now },
        { s with
          posts := s.posts.update row.id fun row => { row with updatedAt := now }
          links := links }) := by
  obtain ⟨post, hpost⟩ := (exists_postOf (s := s)).2 hread
  have hstored : s.posts.row? row.id = some row :=
    (Table.row?_eq_some_iff hs.post_ids).2 ⟨hrow, rfl⟩
  have hfind : s.findPost? row.id = .ok (some post) := by
    rw [findPost?, hstored, Option.mapM_some, hpost]
    rfl
  have htags : ∀ id ∈ (s.tagsOf row.id).map (·.id), s.tags.has id = true :=
    fun id hid => hs.link_tag _ ((mem_tagsOf hs).1 hid)
  have hdate : row.publishedDate.or (if row.status = .published then some now else none) =
      row.publishedDate := by
    cases hdate : row.publishedDate with
    | some date => rfl
    | none =>
        have hstatus : row.status ≠ .published := fun hpublished => h.dated hpublished hdate
        simp [hstatus]
  obtain ⟨-, -, hloaded⟩ := postOf_ok.1 hpost
  refine ⟨post, _, hfind, relinked hs row.id, ?_⟩
  rw [hloaded, Editor.savePost_ok, Post.prepare_ok, savePost_ok]
  dsimp only
  rw [hdate]
  refine ⟨⟨h.name, settleSlug_self h.slug, rfl⟩, hs.post_category row hrow, htags,
    Table.isTaken_of_mem hs.post_slugs hrow rfl rfl, .inl (Table.has_of_mem hrow),
    hs.post_category row hrow, htags, ?_⟩
  rw [Table.put_of_mem (f := fun row => { row with updatedAt := now }) hs.post_ids hrow]
  · rfl
  · rfl
  · simp [PostRow.merge, PostRow.ofPost]

theorem saveComment_again (hs : s.Sound) (hthreaded : Threaded s.comments)
    (hcounters : ∀ row ∈ s.posts, Readable row) {comment : Comment} (hstored : comment ∈ s.comments)
    (h : isBlankText comment.content = false) :
    (Editor.saveComment comment now).outcome s = (.ok { comment with updatedAt := now },
      { s with comments :=
        s.comments.update comment.id fun row => { row with updatedAt := now } }) := by
  obtain ⟨row, hrow⟩ := Table.exists_row?_of_has (hs.comment_post comment hstored)
  have hpost : ∃ post, s.findPost? comment.postId = .ok (some post) :=
    exists_findPost?.2 ⟨row, hrow, hcounters row (Table.mem_of_row? hrow)⟩
  have hparent : ∀ id ∈ comment.parentId,
      ∃ parent, s.comments.row? id = some parent ∧ parent.postId = comment.postId :=
    (hthreaded.forest hs).same_post comment hstored
  have hhas : s.comments.has comment.id = true := Table.has_of_mem hstored
  have hput : s.comments.put mergeComment { comment with updatedAt := now } =
      s.comments.update comment.id fun row => { row with updatedAt := now } := by
    refine Table.put_of_mem hs.comment_ids hstored ?_ ?_ <;> rfl
  rw [Editor.saveComment_ok, Editor.saveReply_ok, saveComment_ok, hput]
  exact ⟨require_ok.2 h, hpost, hparent, ⟨.inl hhas, rfl⟩, rfl⟩

theorem saveMessage_again (hs : s.Sound) {message : ContactMessage} (hstored : message ∈ s.messages)
    (h : message.Obeys) : (Editor.saveMessage message).outcome s = (.ok message, s) := by
  have hput : s.messages.put mergeMessage message = s.messages :=
    Table.put_self hs.message_ids hstored rfl
  rw [Editor.saveMessage_ok]
  refine ⟨ContactMessage.obeys_iff.1 h, ?_, rfl⟩
  show { s with messages := s.messages.put mergeMessage message } = s
  rw [hput]

theorem saveSettings_again (hs : s.Sound) (h : s.loadSettings.Obeys) :
    (Editor.saveSettings s.loadSettings now).outcome s =
      (.ok { s.loadSettings with updatedAt := some now },
        { s with settings := [{ s.loadSettings with updatedAt := some now }] }) := by
  rw [Editor.saveSettings_ok]
  exact ⟨SiteSettings.obeys_iff.1 h, saveSettings_of_once hs.settings_once _, rfl⟩

/-- What obeys the rules can be saved again, as long as the counters of posts can be read. -/
theorem Obeys.savesBack [Libraries] (h : s.Obeys) (hs : s.Sound) (hthreaded : Threaded s.comments)
    (hcounters : ∀ row ∈ s.posts, Readable row) (now : Timestamp) : s.SavesBack now where
  user user hstored :=
    ⟨(Table.row?_eq_some_iff hs.user_ids).2 ⟨hstored, rfl⟩,
      saveUser_again hs hstored (h.users user hstored)⟩
  category category hstored :=
    ⟨(Table.row?_eq_some_iff hs.category_ids).2 ⟨hstored, rfl⟩,
      saveCategory_again hs hstored (h.categories category hstored)⟩
  tag tag hstored :=
    ⟨(Table.row?_eq_some_iff hs.tag_ids).2 ⟨hstored, rfl⟩,
      saveTag_again hs hstored (h.tags tag hstored)⟩
  post row hstored := savePost_again hs hstored (h.posts row hstored) (hcounters row hstored)
  comment comment hstored :=
    ⟨(Table.row?_eq_some_iff hs.comment_ids).2 ⟨hstored, rfl⟩,
      saveComment_again hs hthreaded hcounters hstored (h.comments comment hstored)⟩
  message message hstored :=
    ⟨(Table.row?_eq_some_iff hs.message_ids).2 ⟨hstored, rfl⟩,
      saveMessage_again hs hstored (h.messages message hstored)⟩
  settings := saveSettings_again hs h.settings

theorem obeys_empty : Obeys {} := by
  constructor
  case settings => exact ⟨by decide, by decide⟩
  all_goals
    intro row hrow
    exact absurd hrow List.not_mem_nil

end Store

namespace Call
variable {calls : List Call}

/-- A call of the editor, or a call of the store that is no save. -/
def LeavesContentToEditor (call : Call) : Prop :=
  match call with
  | direct change => ¬ change.IsSave
  | submit _ => True
  | request _ => False

theorem LeavesContentToEditor.comments {call : Call} (h : call.LeavesContentToEditor) :
    call.LeavesCommentsToEditor := by
  cases call with
  | direct change =>
      rintro comment rfl
      exact h trivial
  | submit submission => trivial
  | request x => exact h.elim

theorem run_obeys [Libraries] (hcalls : ∀ call ∈ calls, call.LeavesContentToEditor) :
    (run calls Database.fresh.store).Obeys := by
  refine run_keeps_of_sound ?_ Database.sound_fresh (Database.fresh_store ▸ Store.obeys_empty)
  intro call hcall change s t hmakes happly hs hrules
  have hchange : change.Obeys := by
    cases call with
    | direct c =>
        obtain rfl : change = c := hmakes
        exact Change.obeys_of_not_isSave (hcalls _ hcall)
    | submit submission => exact Submission.obeys_of_change? hmakes
    | request x => exact (hcalls _ hcall).elim
  exact Change.keeps_obeys happly hs hchange hrules

/-- Whatever is submitted to the editor, deleted, viewed and liked, everything that is stored obeys
the rules of content. As long as no counter has left the range in which it is exact, everything can
also be saved again as it is. -/
theorem stored_content_saves_back [Libraries] (calls : List Call)
    (hcalls : ∀ call ∈ calls, call.LeavesContentToEditor) :
    (run calls Database.fresh.store).Obeys ∧
      ((∀ row ∈ (run calls Database.fresh.store).posts, Store.Readable row) →
        ∀ now, (run calls Database.fresh.store).SavesBack now) := by
  have hobeys := run_obeys hcalls
  have hthreaded := run_threaded fun call hcall => (hcalls call hcall).comments
  have hsound := run_keeps_sound calls Database.sound_fresh
  exact ⟨hobeys, fun hcounters now => hobeys.savesBack hsound hthreaded hcounters now⟩

end Call

attribute [local instance] Libraries.bare

namespace Sample

def edited : List Call :=
  [ .submit (.user { admin with username := " alice " } (.ofSeconds 0)),
    .submit (.tag ⟨"g1", "Long reads", "", .ofSeconds 0⟩),
    .submit (.post { post with slug := "", tagIds := ["g1"], status := .published } (.ofSeconds 1)),
    .submit (.comment (comment "k1" none) (.ofSeconds 2)),
    .submit (.comment (comment "k2" (some "k1")) (.ofSeconds 3)),
    .submit (.message ⟨"m1", "Bob", "bob@example.com", "Hello", "Well done.", false, .ofSeconds 4⟩),
    .direct (.addLike "p1"), .direct (.deleteTag "g1") ]

end Sample

/-- All of it can be saved again, after the tag was deleted as well. -/
theorem Call.stored_content_saves_back_of_edited :
    (run Sample.edited Database.fresh.store).Obeys ∧
      (run Sample.edited Database.fresh.store).SavesBack (.ofSeconds 5) ∧
      (run Sample.edited Database.fresh.store).posts.map (·.slug) = ["a-long-read"] ∧
      (run Sample.edited Database.fresh.store).comments.map (·.id) = ["k1", "k2"] := by
  have hcalls : ∀ call ∈ Sample.edited, call.LeavesContentToEditor := by
    simp [Sample.edited, LeavesContentToEditor, Change.IsSave]
  obtain ⟨hobeys, hsaves⟩ := stored_content_saves_back Sample.edited hcalls
  obtain ⟨hcounters, hslugs, hcomments⟩ :
      (∀ row ∈ (run Sample.edited Database.fresh.store).posts, Store.Readable row) ∧
      (run Sample.edited Database.fresh.store).posts.map (·.slug) = ["a-long-read"] ∧
      (run Sample.edited Database.fresh.store).comments.map (·.id) = ["k1", "k2"] := by
    decide +kernel
  exact ⟨hobeys, hsaves hcounters (.ofSeconds 5), hslugs, hcomments⟩

end Gazette
