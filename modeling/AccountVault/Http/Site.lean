import AccountVault.Account.Service
import AccountVault.ApiDocument.Basic
import AccountVault.ApiDocument.Page
import AccountVault.Http.Body
import AccountVault.Http.Negotiation
import AccountVault.Http.Route
import AccountVault.Http.Target
import AccountVault.Text.Percent

/-!
# The service over HTTP

A request is matched to an endpoint by its path and to an operation by its method. Parameters of the
path are decoded before anything else is looked at, then the body, and only then the operation runs.
Every outcome is logged once. A response of at least thirty-two bytes is sent in the coding that the
client prefers, and says that it depends on that preference.

The server that runs the service traces each request on its own: it notes the request when it comes
in, and the status and the time taken when it is answered. These events follow from the request and
its answer, and are not among the events here.
-/

namespace AccountVault.Http

open Program

structure Site where
  service : Service
  docs : Option ApiDocument
  base : String
  router : Router

namespace Site

def build (service : Service) (docs : Option ApiDocument) (base : String) :
    Except RouteError Site :=
  match Router.build base with
  | .ok router => .ok ⟨service, docs, base, router⟩
  | .error e => .error e

end Site

def reject (kind : Failure.Kind) (message : String) : Program Response := do
  let fields := [("status", .number kind.status), ("error", .text message)]
  match kind with
  | .internal => note .error .rejections "request failed" fields
  | _ => note .warn .rejections "request rejected" fields
  return Response.error kind.status message

def accept (answer : AccountAnswer) : Program Response := do
  note .info .handlers (answer.message.getD "") [("status", .number answer.statusCode)]
  return Response.json answer.statusCode [] answer.write

def respond {α : Type} (attempt : Attempt α) (succeed : α → Program Response) :
    Program Response := do
  match ← attempt.run with
  | .ok a => succeed a
  | .error failure => reject failure.kind failure.message

def undecodable? (captures : List Capture) : Option String :=
  (captures.find? fun c => (Percent.decodeText? c.value).isNone).map (·.name)

def onlyParameter (captures : List Capture) : Except Response String :=
  match undecodable? captures with
  | some name => .error (Response.text 400 ("Invalid URL: Invalid UTF-8 in `" ++ name ++ "`"))
  | none =>
    match captures.filterMap fun c => Percent.decodeText? c.value with
    | [value] => .ok value
    | values => .error (Response.text 500
        ("Wrong number of path arguments for `Path`. Expected 1 but got " ++
          toString values.length ++ ". Note that multiple parameters must be extracted with a " ++
          "tuple `Path<(_, _)>` or a struct `Path<YourParams>`"))

def withParameter (captures : List Capture) (next : String → Program Response) :
    Program Response :=
  match onlyParameter captures with
  | .ok value => next value
  | .error response => return response

def readInput (request : Request) : Attempt AccountInput := do
  match request.jsonBody with
  | .ok v => ExceptT.mk (pure (AccountInput.ofValue v))
  | .error fault =>
    note .debug .handlers "unreadable request body" [("error", .text fault.message)]
    throw .invalidInput

namespace Site

def getAccount (site : Site) (captures : List Capture) : Program Response :=
  withParameter captures fun id => respond (site.service.get id) accept

def deleteAccount (site : Site) (captures : List Capture) : Program Response :=
  withParameter captures fun id => respond (site.service.delete id) accept

def createAccount (site : Site) (captures : List Capture) (request : Request) :
    Program Response :=
  withParameter captures fun id =>
    respond (readInput request >>= site.service.create id) accept

def updateAccount (site : Site) (captures : List Capture) (request : Request) :
    Program Response :=
  withParameter captures fun id =>
    respond (readInput request >>= site.service.update id) accept

def listAccounts (site : Site) : Program Response := respond site.service.list accept

def health (site : Site) : Program Response :=
  return Response.json 200 []
    (HealthAnswer.write ⟨"ok", site.service.ready, site.docs.isSome⟩)

def uncached : List (String × String) :=
  [("cache-control", "private, no-cache, no-store, must-revalidate"), ("expires", "-1"),
    ("pragma", "no-cache")]

def loadedDocs (site : Site) : Attempt ApiDocument :=
  match site.docs with
  | some docs => return docs
  | none => throw .docsUnavailable

def docsAddress (site : Site) (docs : ApiDocument) : String :=
  site.base ++ "/swagger/" ++ docs.fileName

def docsPage (site : Site) : Program Response :=
  respond site.loadedDocs fun docs =>
    return { status := 200, headers := uncached ++ [("content-type", "text/html; charset=utf-8")],
             body := Utf8.encode (ApiDocument.Page.render docs.title (site.docsAddress docs)) }

def docsFile (site : Site) (captures : List Capture) : Program Response :=
  withParameter captures fun name =>
    respond (do
      let docs ← site.loadedDocs
      if name = docs.fileName then return docs else throw .unknownFile)
    fun docs =>
      return { status := 200, headers := uncached ++ [("content-type", docs.contentType)],
               body := docs.body }

def unsupported (allowed : String) : Program Response :=
  return { Response.invalidRequest with
    headers := ("allow", allowed) :: Response.invalidRequest.headers }

def handleAccount (site : Site) (captures : List Capture) (request : Request) :
    Program Response :=
  if request.method = "GET" || request.method = "HEAD" then site.getAccount captures
  else if request.method = "POST" then site.createAccount captures request
  else if request.method = "PUT" then site.updateAccount captures request
  else if request.method = "DELETE" then site.deleteAccount captures
  else unsupported "GET,HEAD,POST,PUT,DELETE"

def reading (request : Request) (run : Program Response) : Program Response :=
  if request.method = "GET" || request.method = "HEAD" then run else unsupported "GET,HEAD"

def handleFound (site : Site) (found : Found) (request : Request) : Program Response :=
  match found.route.endpoint with
  | .account => site.handleAccount found.captures request
  | .health => reading request site.health
  | .docsPage => reading request site.docsPage
  | .docsFile => reading request (site.docsFile found.captures)
  | .list => reading request site.listAccounts

def handle (site : Site) (request : Request) : Program Response :=
  match site.router.find? (Target.path request.target) with
  | some found => site.handleFound found request
  | none => return Response.invalidRequest

end Site

namespace Response

/-- Bodies shorter than this are sent as they are. -/
def leastCoded : Nat := 32

def coded (response : Response) (request : Request) : Response :=
  if response.body.length < leastCoded then response
  else
    let varying := response.headers ++ [("vary", "accept-encoding")]
    match Negotiation.choose (request.headerValues "accept-encoding") with
    | .identity => { response with headers := varying }
    | coding =>
      { response with headers := varying ++ [("content-encoding", coding.name)],
                      coding := some coding }

end Response

def Site.answer (request : Request) (handled : Option Response) : Response :=
  (handled.getD Response.cutOff).coded request

end AccountVault.Http
