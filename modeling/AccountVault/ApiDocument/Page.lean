import AccountVault.Text.Markup

/-!
# The documentation page

A page with a viewer for the API document. The title and the address of the document are the only
parts that vary, and both are escaped, so they cannot end the text that they stand in.
-/

namespace AccountVault.ApiDocument.Page

def beforeTitle : String :=
  "<!DOCTYPE html>\n<html lang=\"en\">\n<head>\n  <meta charset=\"utf-8\">\n  <title>"

def beforeAddress : String :=
  "</title>\n" ++
  "  <link rel=\"stylesheet\" href=\"https://unpkg.com/swagger-ui-dist@5/swagger-ui.css\">\n" ++
  "  <style>.swagger-ui .topbar \x7b display: none \x7d</style>\n" ++
  "</head>\n" ++
  "<body>\n" ++
  "  <div id=\"swagger-ui\"></div>\n" ++
  "  <script src=\"https://unpkg.com/swagger-ui-dist@5/swagger-ui-bundle.js\"></script>\n" ++
  "  <script>\n" ++
  "    window.ui = SwaggerUIBundle(\x7b\n" ++
  "      url: \""

def afterAddress : String :=
  "\",\n" ++
  "      dom_id: \"#swagger-ui\",\n" ++
  "      deepLinking: true,\n" ++
  "      supportedSubmitMethods: []\n" ++
  "    \x7d);\n" ++
  "  </script>\n" ++
  "</body>\n" ++
  "</html>\n"

def render (title address : String) : String :=
  beforeTitle ++ Markup.escape title ++ beforeAddress ++ Markup.escape address ++ afterAddress

end AccountVault.ApiDocument.Page
