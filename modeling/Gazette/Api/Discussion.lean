import Gazette.Api.Input
import Gazette.Api.Reading
import Gazette.Store.Delete

/-!
# Discussion

Comments and contact messages. A comment is shown to everyone once an admin has approved it; the
comments of admins need no approval.
-/
namespace Gazette.Api
open Api.Action Gazette.Text

def createComment (context : Context) (caller : Caller) (input : NewComment) : Action Comment :=
  edit <| Editor.saveComment
    { id := context.freshId
      postId := input.post
      authorId := caller.id
      parentId := input.parent.filter fun id => !isBlankText id
      content := input.content
      isApproved := caller.isAdmin
      createdAt := context.now
      updatedAt := context.now }
    context.now

/-- Changes the content of a comment, or its approval, which only admins may do. -/
def updateComment (context : Context) (caller : Caller) (id : String) (input : CommentChange) :
    Action Comment := do
  let comment ← findComment id
  ensure (caller.mayModify comment.authorId) .forbidden
  ensure (input.isApproved.isNone || caller.isAdmin) .forbidden
  let comment := { comment with
    content := input.content.getD comment.content
    isApproved := input.isApproved.getD comment.isApproved }
  edit (Editor.saveComment comment context.now)

def deleteComment (caller : Caller) (id : String) : Action Unit := do
  let comment ← findComment id
  ensure (caller.mayModify comment.authorId) .forbidden
  let _ ← change (Store.deleteComment comment.id)

/-- Takes in a message, from anyone. -/
def sendMessage (context : Context) (form : ContactForm) : Action ContactMessage :=
  edit <| Editor.saveMessage
    { id := context.freshId
      name := trim form.name
      email := trim form.email
      subject := trim form.subject
      message := form.message
      isRead := false
      createdAt := context.now }

def markMessage (caller : Caller) (id : String) (mark : ReadMark) : Action ContactMessage := do
  let message ← readMessage caller id
  edit (Editor.saveMessage { message with isRead := mark.isRead })

def deleteMessage (caller : Caller) (id : String) : Action Unit := do
  requireAdmin caller
  let existed ← change fun s => .ok (s.deleteMessage id)
  ensure existed .notFound

end Gazette.Api
