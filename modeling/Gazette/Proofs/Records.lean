import Gazette.Proofs.InstantText
import Gazette.Store.Record

/-!
# Reading records back

Whatever is written to a column is read from it. So every row is read back from its record, but for
a post with a counter that is no longer exact.
-/
namespace Gazette

/-- The values of a type are read as they were written. -/
class LawfulColumn (α : Type) [Column α] : Prop where
  read_write : ∀ a : α, Column.read (Column.write a) = .ok a

/-- No value of a type is written as nothing. -/
class NotNull (α : Type) [Column α] : Prop where
  write_ne : ∀ a : α, Column.write a ≠ .null

namespace Column

instance : LawfulColumn String := ⟨fun _ => rfl⟩

instance : LawfulColumn Int := ⟨fun _ => rfl⟩

instance : LawfulColumn Bool := ⟨by decide⟩

instance : LawfulColumn Timestamp where
  read_write t := by
    show (Timestamp.readStored? t.storedText).elim _ _ = _
    rw [Timestamp.readStored?_storedText]
    rfl

instance : LawfulColumn PostStatus where
  read_write status := by cases status <;> rfl

instance : NotNull String := ⟨nofun⟩

instance : NotNull Timestamp := ⟨nofun⟩

instance {α : Type} [Column α] [LawfulColumn α] [NotNull α] : LawfulColumn (Option α) where
  read_write
    | none => rfl
    | some a => by
        have hvalue : read (write a) = (.ok a : Except CellError α) := LawfulColumn.read_write a
        show read (write a) = _
        cases hcell : write a with
        | null => exact absurd hcell (NotNull.write_ne a)
        | integer n | text s | real =>
            rw [hcell] at hvalue
            show (read _ : Except CellError α).map some = _
            rw [hvalue]
            rfl

end Column

attribute [simp] LawfulColumn.read_write

theorem User.ofRecord_record (user : User) : ofRecord user.record = .ok user := by
  simp [ofRecord, record, Record.read, bind, Except.bind]

theorem Category.ofRecord_record (category : Category) :
    ofRecord category.record = .ok category := by
  simp [ofRecord, record, Record.read, bind, Except.bind]

theorem Tag.ofRecord_record (tag : Tag) : ofRecord tag.record = .ok tag := by
  simp [ofRecord, record, Record.read, bind, Except.bind]

theorem Comment.ofRecord_record (comment : Comment) : ofRecord comment.record = .ok comment := by
  simp [ofRecord, record, Record.read, bind, Except.bind]

theorem ContactMessage.ofRecord_record (message : ContactMessage) :
    ofRecord message.record = .ok message := by
  simp [ofRecord, record, Record.read, bind, Except.bind]

theorem SiteSettings.ofRecord_record (settings : SiteSettings) :
    ofRecord settings.record = .ok settings := by
  simp [ofRecord, record, Record.read, bind, Except.bind]

def Counter.read (index : Nat) (column : String) : Counter → Except StoreError Int
  | exact n => .ok n
  | inexact => .error (.mistyped "Real" index column)

/-- What a row says of its post, with given counters. The tags stand elsewhere. -/
def PostRow.shown (row : PostRow) (views likes : Int) : Post :=
  { id := row.id, title := row.title, slug := row.slug, content := row.content
    excerpt := row.excerpt, authorId := row.authorId, categoryId := row.categoryId
    tagIds := [], status := row.status, isActive := row.isActive
    publishedDate := row.publishedDate, viewCount := views, likes := likes
    createdAt := row.createdAt, updatedAt := row.updatedAt }

/-- A post is read but for its counters, whatever columns follow its own. -/
theorem Post.ofRecord_record (row : PostRow) (rest : Record) :
    ofRecord (row.record ++ rest) = do
      let views ← row.viewCount.read 10 "view_count"
      let likes ← row.likes.read 11 "likes"
      return row.shown views likes := by
  have hexact : ∀ n : Int, Column.read (Cell.integer n) = (.ok n : Except CellError Int) :=
    fun _ => rfl
  have hreal : Column.read Cell.real = (.error .kind : Except CellError Int) := rfl
  cases hviews : row.viewCount with
  | inexact =>
      simp [ofRecord, PostRow.record, Record.read, bind, Except.bind, hviews, Counter.cell,
        Counter.read, hreal, Cell.kind]
  | exact views =>
      cases hlikes : row.likes <;>
        simp [ofRecord, PostRow.record, Record.read, bind, Except.bind, pure, Except.pure, hviews,
          hlikes, Counter.cell, Counter.read, hexact, hreal, Cell.kind, PostRow.shown]

end Gazette
