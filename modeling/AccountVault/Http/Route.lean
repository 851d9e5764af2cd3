import AccountVault.Text.Quoted

/-!
# Routes

A route is a pattern of literal characters and parameters; a parameter stands for a run of
characters without a slash, up to the end of its segment. Of two routes that match a path, the one
wins that has a literal where the other first has a parameter. The routes of the service hang below
a base path, and building them fails when the base path does not make well-formed, distinct
patterns.
-/

namespace AccountVault.Http

inductive Endpoint where
  | health
  | docsPage
  | docsFile
  | account
  | list
  deriving DecidableEq

inductive Piece where
  | literal (c : Char)
  | parameter (name : String)
  deriving DecidableEq

structure Capture where
  name : String
  value : String
  deriving DecidableEq

inductive RouteError where
  | notRooted
  | twoParameters (pattern : String)
  | unnamedParameter (pattern : String)
  | tooManyParameters
  | innerCatchAll (pattern : String)
  | overlap (pattern : String)
  deriving DecidableEq

def RouteError.message : RouteError → String
  | notRooted => "Paths must start with a `/`"
  | twoParameters pattern =>
    "Invalid route " ++ Quoted.quote pattern ++
      ": only one parameter is allowed per path segment"
  | unnamedParameter pattern =>
    "Invalid route " ++ Quoted.quote pattern ++ ": parameters must be registered with a name"
  | tooManyParameters => "too many route parameters"
  | innerCatchAll pattern =>
    "Invalid route " ++ Quoted.quote pattern ++
      ": catch-all parameters are only allowed at the end of a route"
  | overlap pattern =>
    "Overlapping method route. Handler for `GET " ++ pattern ++ "` already exists"

namespace Pattern

def mostParameters : Nat := 25

/-- The pieces of a pattern, or the first fault in it; that a parameter catches everything is a
fault which any other fault precedes. `seen` counts the parameters before. -/
def parseFrom (pattern : String) : (rounds : Nat) → (seen : Nat) → List Char →
    Except RouteError (List Piece)
  | 0, _, _ => .ok []
  | _, _, [] => .ok []
  | rounds + 1, seen, c :: rest =>
    if c = ':' || c = '*' then
      let name := rest.takeWhile (· ≠ '/')
      if name.any fun d => d = ':' || d = '*' then .error (.twoParameters pattern)
      else if name.isEmpty then .error (.unnamedParameter pattern)
      else if c = '*' then
        match parseFrom pattern rounds seen (rest.drop name.length) with
        | .ok _ => .error (.innerCatchAll pattern)
        | .error e => .error e
      else if seen ≥ mostParameters then .error .tooManyParameters
      else
        match parseFrom pattern rounds (seen + 1) (rest.drop name.length) with
        | .ok pieces => .ok (.parameter (String.ofList name) :: pieces)
        | .error e => .error e
    else
      match parseFrom pattern rounds seen rest with
      | .ok pieces => .ok (.literal c :: pieces)
      | .error e => .error e

def parse (pattern : String) : Except RouteError (List Piece) :=
  if pattern.startsWith "/" then
    parseFrom pattern (pattern.toList.length + 1) 0 pattern.toList
  else .error .notRooted

def captures? : List Piece → List Char → Option (List Capture)
  | [], [] => some []
  | [], _ :: _ => none
  | .literal _ :: _, [] => none
  | .literal c :: pieces, d :: path => if c = d then captures? pieces path else none
  | .parameter name :: pieces, path =>
    let value := path.takeWhile (· ≠ '/')
    if value.isEmpty then none
    else
      (captures? pieces (path.drop value.length)).map fun captures =>
        ⟨name, String.ofList value⟩ :: captures

/-- Whether a pattern has a literal where another first has a parameter. -/
def beats : List Piece → List Piece → Bool
  | .literal _ :: _, .parameter _ :: _ => true
  | .literal _ :: p, .literal _ :: q => beats p q
  | .parameter _ :: p, .parameter _ :: q => beats p q
  | _, _ => false

end Pattern

structure Route where
  pattern : List Piece
  endpoint : Endpoint
  deriving DecidableEq

structure Found where
  route : Route
  captures : List Capture
  deriving DecidableEq

structure Router where
  routes : List Route
  deriving DecidableEq

namespace Router

/-- The patterns below a base path. The list is found with and without a slash at the end. -/
def patterns (base : String) : List (String × Endpoint) :=
  [("/health", .health), (base ++ "/swagger", .docsPage),
    (base ++ "/swagger/:file_name", .docsFile), (base ++ "/:account_id", .account),
    (base ++ "/", .list)] ++ (if base.isEmpty then [] else [(base, .list)])

def add (routes : List Route) (pattern : String) (endpoint : Endpoint) :
    Except RouteError (List Route) :=
  match Pattern.parse pattern with
  | .error e => .error e
  | .ok pieces =>
    if routes.any (·.pattern = pieces) then .error (.overlap pattern)
    else .ok (routes ++ [⟨pieces, endpoint⟩])

def addAll : List Route → List (String × Endpoint) → Except RouteError (List Route)
  | routes, [] => .ok routes
  | routes, (pattern, endpoint) :: rest =>
    match add routes pattern endpoint with
    | .error e => .error e
    | .ok routes => addAll routes rest

def build (base : String) : Except RouteError Router :=
  match addAll [] (patterns base) with
  | .ok routes => .ok ⟨routes⟩
  | .error e => .error e

def better (found : Option Found) (other : Found) : Option Found :=
  match found with
  | none => some other
  | some f => if Pattern.beats other.route.pattern f.route.pattern then some other else some f

def matching (router : Router) (path : List Char) : List Found :=
  router.routes.filterMap fun route =>
    (Pattern.captures? route.pattern path).map fun captures => ⟨route, captures⟩

def find? (router : Router) (path : String) : Option Found :=
  (router.matching path.toList).foldl better none

end Router

end AccountVault.Http
