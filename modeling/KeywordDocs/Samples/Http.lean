import KeywordDocs.Samples.Data
import KeywordDocs.Text.Base64

/-!
# A Library for Requests

Requests are answered without a network: every answer is the same apart from what it repeats.
-/

namespace KeywordDocs.Samples

def response (status : Int) (headers : Value) (message : String) (more : List (Value × Value)) :
  Value :=
  .dict [(.str "status", .int status), (.str "headers", if headers.isTruthy then headers else .dict []),
    (.str "body", .dict ((.str "message", .str message) :: more))]

def repeated (v : Value) : List (Value × Value) := [(.str "data", if v.isTruthy then v else .dict [])]

def setHeader (name v : Value) : Playing Value := do
  if !name.isHashable then throw .wrongKind
  match ← stateField "_session_headers" with
  | .dict entries => setState "_session_headers" (.dict (setEntry name v entries))
  | _ => pure ()
  return .none

def isSuccess (status : Value) : Except Fault Bool := do
  if ← status.less (.int 200) then return false
  status.less (.int 300)

def queryString (params : List (Value × Value)) : String :=
  Text.join "&" (params.map fun (k, v) => k.display ++ "=" ++ v.display)

def http : SampleLibrary where
  initial := [("_session_headers", .dict []), ("_last_response", .none)]
  keywords := [ keyword2 "http_get" (.required "url") (.optional "headers" .none) fun url headers =>
      return response 200 headers "GET request successful" [(.str "url", url)],
    keyword3 "http_post" (.required "url") (.optional "data" .none) (.optional "headers" .none)
      fun _ v headers => return response 201 headers "POST request successful" (repeated v),
    keyword3 "http_put" (.required "url") (.optional "data" .none) (.optional "headers" .none)
      fun _ v headers => return response 200 headers "PUT request successful" (repeated v),
    keyword2 "http_delete" (.required "url") (.optional "headers" .none) fun _ headers =>
      return response 204 headers "DELETE request successful" [],
    keyword2 "set_header" (.required "name") (.required "value") setHeader,
    keyword0 "clear_headers" do
      setState "_session_headers" (.dict [])
      return .none,
    keyword1 "get_response_status" (.required "response") fun r =>
      outcome (getOr r (.str "status") (.int 0)),
    keyword1 "get_response_body" (.required "response") fun r =>
      outcome (getOr r (.str "body") (.dict [])),
    keyword1 "response_should_be_success" (.required "response") fun r => outcome do
      if ← isSuccess (← getOr r (.str "status") (.int 0)) then return .none
      else .error .unmetExpectation,
    keyword1 "parse_json_response" (.required "response") fun r => outcome do
      readIfText (← getOr r (.str "body") (.dict [])),
    keyword1 "build_query_string" (.required "params") fun params => outcome do
      return .str (queryString (← entriesFor params)),
    keyword2 "set_basic_auth" (.required "username") (.required "password") fun user password =>
      let credentials := user.display ++ ":" ++ password.display
      setHeader (.str "Authorization") (.str ("Basic " ++ Base64.encode credentials.toUTF8.toList)),
    keyword1 "set_bearer_token" (.required "token") fun token =>
      setHeader (.str "Authorization") (.str ("Bearer " ++ token.display))]

end KeywordDocs.Samples
