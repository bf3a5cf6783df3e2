import Clarc.Listing.RemoteListOfFiles

/-!
# Access to the bucket: `checkAuth` and `createBucket`

Before anything else `main` asks for the location of the bucket, and creates the bucket when there
is none and a region was given.
-/

namespace Clarc

open Bytes

namespace RemoteListOfFiles

/-- What `checkAuth` returns. -/
inductive Auth
  | crashed
  | success
  | bucketDoesntExist
  | failed
  deriving DecidableEq, Repr

/-- The request of `checkAuth`. -/
def authRequest (c : AmazonCredentials) (useSsl : Bool) : Request :=
  getRequest c useSsl none [] true

/-- `RemoteListOfFiles::checkAuth`, from the response. -/
def checkAuth (response : Option Response) : Auth :=
  match performGetOnBucket response with
  | .crashed => .crashed
  | .failed _ => .failed
  | .redirected _ => .failed
  | .received statusCode _ =>
      if statusCode = 200 then .success
      else if statusCode = 404 then .bucketDoesntExist
      else .failed

/-- The request of `performPutOnBucket`. -/
def createRequest (c : AmazonCredentials) (useSsl : Bool) (url : Option Bytes) (region : Bytes) :
    Request where
  method := .put
  url := url.getD (c.generateUrlForBucketCreate useSsl)
  canonicalizedResource := c.resource []
  headers := [(ascii "x-amz-acl", ascii "private"), (ascii "Expect", [])]
  body :=
    if region = [] ∨ region = ascii "US" then .none
    else .data (ascii
      "<CreateBucketConfiguration xmlns=\"http://s3.amazonaws.com/doc/2006-03-01/\">" ++
        ascii "<LocationConstraint>" ++ region ++
        ascii "</LocationConstraint></CreateBucketConfiguration>\n")

/-- What an iteration of `createBucket` leads to. -/
inductive CreateStep
  | crashed
  | again (url : Bytes)
  | returned (success : Bool)
  deriving DecidableEq, Repr

/-- The body of the loop of `RemoteListOfFiles::createBucket`, around `performPutOnBucket`. -/
def createBucket : Option Response → CreateStep
  | none => .returned false
  | some response =>
      match response.go with
      | none => .crashed
      | some t =>
          if t.res = .ok then
            if t.httpStatusCode = 307 then
              match t.getHeader (ascii "location") with
              | none => .crashed
              | some location => .again location
            else .returned (t.httpStatusCode = 200)
          else .returned false

end RemoteListOfFiles

end Clarc
