import Gazette.Proofs.Listing
import Gazette.Proofs.Resaving

/-!
# Reading back

What can be read once something was saved. A new thing reads as it was saved, and a stored one as
the merge of the two. Nothing else reads differently, and it makes no difference whether a thing is
looked up by its id, by its slug or by its name.
-/
namespace Gazette

/-- Whether a row was written into a table and no other one. A row that was there before is merged
with the new one. -/
structure Table.Wrote {α : Type} [Keyed α] (merge : α → α → α) (row : α)
    (before after : Table α) : Prop where
  read : after.row? (Keyed.key row) = some ((before.row? (Keyed.key row)).elim row (merge · row))
  others : ∀ key, key ≠ Keyed.key row → after.row? key = before.row? key

theorem Table.wrote_put {α : Type} [Keyed α] {merge : α → α → α} (keeps : KeepsKey merge) (row : α)
    (table : Table α) : Table.Wrote merge row table (table.put merge row) where
  read := by rw [row?_put keeps, if_pos rfl]
  others key hne := row?_put_other keeps hne.symm table

def Tag.sortKey (tag : Tag) : String ×ₗ String :=
  toLex (tag.name, tag.id)

/-- Whether tag ids are some given ones, each once, in the order of the names of the tags. Tags of
one name stand in the order of their ids. -/
structure Store.Tidies (s : Store) (given tagIds : List String) : Prop where
  mem_iff : ∀ id, id ∈ tagIds ↔ id ∈ given
  nodup : tagIds.Nodup
  sorted : tagIds.Pairwise fun a b => ∃ x y, s.tags.row? a = some x ∧ s.tags.row? b = some y ∧
    (x.name < y.name ∨ x.name = y.name ∧ x.id < y.id)

namespace Store
variable {s t : Store}

theorem nodup_tagsOf (hs : s.Sound) (postId : String) : ((s.tagsOf postId).map (·.id)).Nodup :=
  ((List.mergeSort_perm _ _).map Tag.id).nodup_iff.2
    (hs.tag_ids.sublist (List.filter_sublist.map _))

theorem row?_of_mem_tagsOf (hs : s.Sound) {postId : String} {tag : Tag}
    (h : tag ∈ s.tagsOf postId) : s.tags.row? tag.id = some tag := by
  have htag := (List.mem_filter.1 (List.mem_mergeSort.1 h)).1
  exact (Table.row?_eq_some_iff hs.tag_ids).2 ⟨htag, rfl⟩

theorem pairwise_tagsOf (hs : s.Sound) (postId : String) :
    (s.tagsOf postId).Pairwise fun a b => a.sortKey < b.sortKey := by
  have hle : ∀ a b : Tag, (a.name < b.name || (a.name == b.name && a.id ≤ b.id)) = true ↔
      a.sortKey ≤ b.sortKey := by
    intro a b
    rw [Tag.sortKey, Tag.sortKey, Prod.Lex.toLex_le_toLex]
    simp
  have hsorted : (s.tagsOf postId).Pairwise fun a b => a.sortKey ≤ b.sortKey := by
    refine (List.pairwise_mergeSort ?_ ?_ _).imp fun {a b} h => (hle a b).1 h
    · intro a b c hab hbc
      rw [hle] at *
      exact hab.trans hbc
    · intro a b
      rw [Bool.or_eq_true, hle, hle]
      exact le_total _ _
  refine (hsorted.and (List.pairwise_map.1 (nodup_tagsOf hs postId))).imp ?_
  rintro a b ⟨hab, hne⟩
  exact hab.lt_of_ne fun hkey => hne (congrArg Prod.snd (toLex.injective hkey))

theorem tidies_tagsOf (hs : s.Sound) {postId : String} {given : List String}
    (h : ∀ id, (⟨postId, id⟩ : TagLink) ∈ s.links ↔ id ∈ given) :
    s.Tidies given ((s.tagsOf postId).map (·.id)) where
  mem_iff id := (mem_tagsOf hs).trans (h id)
  nodup := nodup_tagsOf hs postId
  sorted := by
    rw [List.pairwise_map]
    refine (pairwise_tagsOf hs postId).imp_of_mem fun {a b} ha hb hlt => ?_
    refine ⟨a, b, row?_of_mem_tagsOf hs ha, row?_of_mem_tagsOf hs hb, ?_⟩
    rwa [Tag.sortKey, Tag.sortKey, Prod.Lex.toLex_lt_toLex] at hlt

/-- A post reads alike in two stores if its row is the same in both, and the tags and its links. -/
theorem findPost?_congr {id : String} (hrow : t.posts.row? id = s.posts.row? id)
    (htags : t.tags = s.tags)
    (hlinks : ∀ tagId, (⟨id, tagId⟩ : TagLink) ∈ t.links ↔ ⟨id, tagId⟩ ∈ s.links) :
    t.findPost? id = s.findPost? id := by
  have hread := tagsOf_congr htags hlinks
  unfold findPost?
  rw [hrow]
  cases hstored : s.posts.row? id with
  | none => rfl
  | some row =>
      have hid : row.id = id := Table.key_of_row? hstored
      rw [Option.mapM_some, Option.mapM_some, postOf_congr (hid ▸ hread)]

end Store

/-- A post as it reads once it was saved over a stored one. -/
def Post.over (new old : Post) : Post :=
  { new with
    authorId := old.authorId
    publishedDate := old.publishedDate.or new.publishedDate
    viewCount := old.viewCount
    likes := old.likes
    createdAt := old.createdAt }

namespace Store
variable {s t : Store}

/-- Whether a post was saved and its tags are now exactly the given ones. Every other post reads as
before. -/
structure WrotePost (s t : Store) (post : Post) : Prop where
  read : ∃ old? tagIds, s.findPost? post.id = .ok old? ∧ t.Tidies post.tagIds tagIds ∧
    t.findPost? post.id = .ok (some { old?.elim post post.over with tagIds := tagIds })
  links : ∀ tagId, (⟨post.id, tagId⟩ : TagLink) ∈ t.links ↔ tagId ∈ post.tagIds
  link_once : t.links.Nodup
  other_links : ∀ link, link.postId ≠ post.id → (link ∈ t.links ↔ link ∈ s.links)
  other_rows : ∀ id, id ≠ post.id → t.posts.row? id = s.posts.row? id
  others : ∀ id, id ≠ post.id → t.findPost? id = s.findPost? id

theorem mem_links_of_savePost {post : Post} (h : s.savePost post = .ok t) (link : TagLink) :
    link ∈ t.links ↔
      if link.postId = post.id then link.tagId ∈ post.tagIds else link ∈ s.links := by
  obtain ⟨-, -, -, -, rfl⟩ := savePost_ok.1 h
  rw [List.mem_append, List.mem_filter, List.mem_map]
  simp only [List.mem_eraseDups, bne_iff_ne]
  split
  · rename_i hpost
    constructor
    · rintro (⟨-, hne⟩ | ⟨tagId, htag, rfl⟩)
      · exact absurd hpost hne
      · exact htag
    · intro htag
      exact .inr ⟨link.tagId, htag, hpost ▸ rfl⟩
  · rename_i hpost
    constructor
    · rintro (⟨hlink, -⟩ | ⟨tagId, -, rfl⟩)
      · exact hlink
      · exact absurd rfl hpost
    · intro hlink
      exact .inl ⟨hlink, hpost⟩

theorem wrotePost_of_savePost (hs : s.Sound) {post : Post}
    (hread : ∀ row, s.posts.row? post.id = some row → Readable row)
    (h : s.savePost post = .ok t) : s.WrotePost t post := by
  have hlinks : ∀ tagId, (⟨post.id, tagId⟩ : TagLink) ∈ t.links ↔ tagId ∈ post.tagIds := by
    intro tagId
    rw [mem_links_of_savePost h, if_pos rfl]
  have hother : ∀ link : TagLink, link.postId ≠ post.id → (link ∈ t.links ↔ link ∈ s.links) := by
    intro link hne
    rw [mem_links_of_savePost h, if_neg hne]
  have hrows : ∀ id, id ≠ post.id → t.posts.row? id = s.posts.row? id := by
    intro id hne
    rw [row?_savePost h, if_neg hne.symm]
  have htags : t.tags = s.tags := by
    obtain ⟨-, -, -, -, rfl⟩ := savePost_ok.1 h
    rfl
  have ht : t.Sound := hs.savePost h
  have hrow := row?_savePost h post.id
  rw [if_pos rfl] at hrow
  refine ⟨?_, hlinks, ht.link_once, hother, hrows, fun id hne =>
    findPost?_congr (hrows id hne) htags fun tagId => hother _ hne⟩
  cases hstored : s.posts.row? post.id with
  | none =>
      rw [hstored, Option.elim_none] at hrow
      refine ⟨none, _, ?_, tidies_tagsOf ht hlinks, ?_⟩
      · rw [findPost?, hstored]
        rfl
      · have hpost : t.postOf (PostRow.ofPost post) =
            .ok { post with tagIds := (t.tagsOf post.id).map (·.id) } :=
          postOf_ok.2 ⟨rfl, rfl, rfl⟩
        rw [findPost?, hrow, Option.mapM_some, hpost]
        rfl
  | some row =>
      rw [hstored, Option.elim_some] at hrow
      obtain ⟨old, hold⟩ := (exists_postOf (s := s)).2 (hread row hstored)
      obtain ⟨hviews, hlikes, hloaded⟩ := postOf_ok.1 hold
      refine ⟨some old, _, ?_, tidies_tagsOf ht hlinks, ?_⟩
      · rw [findPost?, hstored, Option.mapM_some, hold]
        rfl
      · have hpost : t.postOf (PostRow.merge row (PostRow.ofPost post)) =
            .ok { post.over old with tagIds := (t.tagsOf post.id).map (·.id) } := by
          refine postOf_ok.2 ⟨hviews, hlikes, ?_⟩
          rw [hloaded]
          rfl
        rw [findPost?, hrow, Option.mapM_some, hpost]
        rfl

/-- Whether it makes no difference how a thing is looked up: what stands at a slug or has a name is
what the look-up by its id leads to. -/
structure LooksUpAlike (s : Store) : Prop where
  user : ∀ username user, s.findUserNamed? username = some user ↔
    user.username = username ∧ s.users.row? user.id = some user
  category : ∀ slug category, s.findCategoryAt? slug = some category ↔
    category.slug = slug ∧ s.categories.row? category.id = some category
  tag : ∀ slug tag, s.findTagAt? slug = some tag ↔
    tag.slug = slug ∧ s.tags.row? tag.id = some tag
  post : ∀ row ∈ s.posts, s.findPostAt? row.slug = s.findPost? row.id
  view : ∀ row ∈ s.posts, (s.findView? row.slug).map (·.map (·.post)) = s.findPost? row.id
  no_post : ∀ slug, (∀ row ∈ s.posts, row.slug ≠ slug) →
    s.findPostAt? slug = .ok none ∧ s.findView? slug = .ok none

/-- Where the values of a column are unique, they lead to the rows that the keys lead to. -/
theorem find?_eq_some_iff {α β : Type} [Keyed α] [BEq β] [LawfulBEq β] {table : Table α}
    {column : α → β} (keys : (table.map Keyed.key).Nodup) (unique : (table.map column).Nodup)
    (value : β) (row : α) : table.find? (fun other => column other == value) = some row ↔
      column row = value ∧ table.row? (Keyed.key row) = some row := by
  rw [Table.row?_eq_some_iff keys]
  constructor
  · intro h
    exact ⟨by simpa using List.find?_some h, List.mem_of_find?_eq_some h, rfl⟩
  · rintro ⟨rfl, hrow, -⟩
    exact Table.find?_of_mem unique hrow

theorem findPost?_of_mem (hs : s.Sound) {row : PostRow} (hrow : row ∈ s.posts) :
    s.findPost? row.id = (s.postOf row).map some := by
  have hstored : s.posts.row? row.id = some row :=
    (Table.row?_eq_some_iff hs.post_ids).2 ⟨hrow, rfl⟩
  rw [findPost?, hstored, Option.mapM_some]
  rfl

theorem looksUpAlike (hs : s.Sound) : s.LooksUpAlike where
  user := find?_eq_some_iff hs.user_ids hs.usernames
  category := find?_eq_some_iff hs.category_ids hs.category_slugs
  tag := find?_eq_some_iff hs.tag_ids hs.tag_slugs
  post row hrow := by
    have hat : s.findPostRowAt? row.slug = some row := Table.find?_of_mem hs.post_slugs hrow
    rw [findPost?_of_mem hs hrow, findPostAt?, hat, Option.mapM_some]
    rfl
  view row hrow := by
    obtain ⟨joined, hfind, hjoined⟩ := exists_joined_at hs hrow
    rw [findPost?_of_mem hs hrow, findView?, hfind, Option.mapM_some, viewOf_eq, hjoined]
    cases s.postOf row <;> rfl
  no_post slug hfree := by
    have hat : s.findPostRowAt? slug = none := by
      rw [findPostRowAt?, List.find?_eq_none]
      intro row hrow
      simpa using hfree row hrow
    have hjoined : s.joinedPosts.find? (fun joined => joined.row.slug == slug) = none := by
      rw [List.find?_eq_none]
      intro joined hmem
      simpa using hfree joined.row (joins_of_mem hs hmem).row
    rw [findPostAt?, hat, findView?, hjoined]
    exact ⟨rfl, rfl⟩

end Store

namespace Change
variable {s t : Store} {change : Change}

/-- What a save leaves to read. Nothing is written but the one thing. -/
def ReadsBack (change : Change) (s t : Store) : Prop :=
  match change with
  | saveUser user =>
    Table.Wrote Store.mergeUser user s.users t.users ∧ t = { s with users := t.users }
  | saveCategory category =>
    Table.Wrote Store.mergeCategory category s.categories t.categories ∧
      t = { s with categories := t.categories }
  | saveTag tag => Table.Wrote Store.mergeTag tag s.tags t.tags ∧ t = { s with tags := t.tags }
  | savePost post =>
    s.WrotePost t post ∧ t = { s with posts := t.posts, links := t.links }
  | saveComment comment =>
    Table.Wrote Store.mergeComment comment s.comments t.comments ∧
      t = { s with comments := t.comments }
  | saveMessage message =>
    Table.Wrote Store.mergeMessage message s.messages t.messages ∧
      t = { s with messages := t.messages }
  | saveSettings settings =>
    t.loadSettings = settings ∧ t = { s with settings := t.settings }
  | _ => True

theorem readsBack (hs : s.Sound) (hread : ∀ row ∈ s.posts, Store.Readable row)
    (h : change.apply s = .ok t) : change.ReadsBack s t := by
  cases change with
  | saveUser user =>
      obtain ⟨-, -, rfl⟩ := Store.saveUser_ok.1 h
      exact ⟨Table.wrote_put Store.mergeUser_keepsKey user s.users, rfl⟩
  | saveCategory category =>
      obtain ⟨-, rfl⟩ := Store.saveCategory_ok.1 h
      exact ⟨Table.wrote_put Store.mergeCategory_keepsKey category s.categories, rfl⟩
  | saveTag tag =>
      obtain ⟨-, rfl⟩ := Store.saveTag_ok.1 h
      exact ⟨Table.wrote_put Store.mergeTag_keepsKey tag s.tags, rfl⟩
  | savePost post =>
      refine ⟨Store.wrotePost_of_savePost hs (fun row hrow => ?_) h, ?_⟩
      · exact hread row (Table.mem_of_row? hrow)
      · obtain ⟨-, -, -, -, rfl⟩ := Store.savePost_ok.1 h
        rfl
  | saveComment comment =>
      obtain ⟨-, rfl⟩ := Store.saveComment_ok.1 h
      exact ⟨Table.wrote_put Store.mergeComment_keepsKey comment s.comments, rfl⟩
  | saveMessage message =>
      cases h
      exact ⟨Table.wrote_put Store.mergeMessage_keepsKey message s.messages, rfl⟩
  | saveSettings settings =>
      cases h
      exact ⟨Store.loadSettings_saveSettings settings s, rfl⟩
  | _ => trivial

def settings? : Change → Option SiteSettings
  | saveSettings settings => some settings
  | _ => none

theorem loadSettings_of_apply (h : change.apply s = .ok t) (hs : s.Sound) :
    t.loadSettings = change.settings?.getD s.loadSettings := by
  rcases (apply_keeps h hs).settings with ⟨settings, rfl⟩ | hsame
  · cases h
    exact Store.loadSettings_saveSettings settings s
  · cases change with
    | saveSettings settings =>
        cases h
        exact Store.loadSettings_saveSettings settings s
    | _ => rw [Store.loadSettings, hsame]; rfl

theorem loadSettings_after (hs : s.Sound) (change : Change) :
    (change.after s).loadSettings = change.settings?.getD s.loadSettings := by
  rcases change.after_cases s with hsame | happly
  · cases change with
    | saveSettings settings => exact Store.loadSettings_saveSettings settings s
    | _ => rw [hsame]; rfl
  · exact loadSettings_of_apply happly hs

end Change

namespace Call

def settings? : Call → Option SiteSettings
  | direct change => change.settings?
  | _ => none

/-- What is loaded after some calls is what was saved last, as long as the store itself is asked to
save settings. -/
theorem loadSettings_run [Libraries] {calls : List Call}
    (h : ∀ call ∈ calls, ∀ change, call.Makes change → change.settings? = call.settings?)
    {s : Store} (hs : s.Sound) :
    (run calls s).loadSettings = (calls.filterMap settings?).getLast?.getD s.loadSettings := by
  induction calls generalizing s with
  | nil => rfl
  | cons call calls ih =>
      obtain ⟨hcall, hcalls⟩ := List.forall_mem_cons.1 h
      have hfirst : (call.after s).loadSettings = call.settings?.getD s.loadSettings := by
        cases call with
        | direct change => exact Change.loadSettings_after hs change
        | submit submission =>
            refine after_keeps_of_sound (I := fun t => t.loadSettings = s.loadSettings) ?_ hs rfl
            intro change t u hmakes happly ht hsame
            rw [Change.loadSettings_of_apply happly ht, hcall change hmakes]
            exact hsame
        | request x =>
            refine after_keeps_of_sound (I := fun t => t.loadSettings = s.loadSettings) ?_ hs rfl
            intro change t u hmakes happly ht hsame
            rw [Change.loadSettings_of_apply happly ht, hcall change hmakes]
            exact hsame
      rw [run_cons, ih hcalls (call.after_keeps_sound s hs), hfirst, List.filterMap_cons]
      cases call.settings? with
      | none => rfl
      | some settings =>
          rw [List.getLast?_cons]
          cases (calls.filterMap settings?).getLast? <;> rfl

/-- Whatever is saved can be read as it was saved. In every store that can be reached and whose
counters can be read, a new thing reads back as the saved one, and a thing that was stored as the
saved one but for the fields that are written once. The tags of a post are then exactly the given
ones, look-ups by slug or name agree with those by id, and nothing else has changed. What is loaded
as the settings is what was saved last, or the default ones. -/
theorem saves_read_back [Libraries] :
    (∀ (calls : List Call) (change : Change) (s t : Store),
      run calls Database.fresh.store = s → (∀ row ∈ s.posts, Store.Readable row) →
      change.apply s = .ok t → change.ReadsBack s t ∧ t.LooksUpAlike) ∧
    (∀ calls : List Call,
      (∀ call ∈ calls, ∀ change, call.Makes change → change.settings? = call.settings?) →
      (run calls Database.fresh.store).loadSettings =
        (calls.filterMap settings?).getLast?.getD {}) := by
  constructor
  · rintro calls change s t rfl hread happly
    have hs := run_keeps_sound calls Database.sound_fresh
    exact ⟨change.readsBack hs hread happly, Store.looksUpAlike (change.keeps_sound _ _ happly hs)⟩
  · intro calls hcalls
    rw [loadSettings_run hcalls Database.sound_fresh, Database.fresh_store]
    rfl

end Call

attribute [local instance] Libraries.bare

namespace Sample

def tagNamed (id name : String) : Tag where
  id := id
  name := name
  slug := name
  createdAt := .ofSeconds 0

def viewed : List Call :=
  start ++ [.direct (.saveTag (tagNamed "t1" "wide")), .direct (.saveTag (tagNamed "t2" "deep")),
    .direct (.savePost post), .direct (.recordView "p1")]

def retagged : Post :=
  { post with
    title := "A longer read"
    authorId := ""
    tagIds := ["t1", "t2", "t1"]
    viewCount := 7 }

def settingsOf (siteName : String) : SiteSettings :=
  { siteName := siteName }

end Sample

/-- The draft keeps its author and its one view, and has both tags once. The second of two settings
is loaded. -/
theorem Call.saves_read_back_of_retagged :
    let s := run Sample.viewed Database.fresh.store
    let t := (Change.savePost Sample.retagged).after s
    (Change.savePost Sample.retagged).ReadsBack s t ∧ t.LooksUpAlike ∧
      t.posts.map (fun row => (row.title, row.authorId, row.viewCount)) =
        [("A longer read", "u1", .exact 1)] ∧ t.links = [⟨"p1", "t1"⟩, ⟨"p1", "t2"⟩] ∧
      (run [.direct (.saveSettings (Sample.settingsOf "One")),
        .direct (.saveSettings (Sample.settingsOf "Two"))] Database.fresh.store).loadSettings =
          Sample.settingsOf "Two" := by
  intro s t
  obtain ⟨hsaves, hsettings⟩ := saves_read_back
  have hread : ∀ row ∈ s.posts, Store.Readable row := by decide +kernel
  have happly : (Change.savePost Sample.retagged).apply s = .ok t := by decide +kernel
  obtain ⟨hback, halike⟩ := hsaves Sample.viewed _ s t rfl hread happly
  refine ⟨hback, halike, by decide +kernel, by decide +kernel, ?_⟩
  refine hsettings _ fun call hcall change hmakes => ?_
  simp only [List.mem_cons, List.not_mem_nil, or_false] at hcall
  rcases hcall with rfl | rfl <;> cases hmakes <;> rfl

end Gazette
